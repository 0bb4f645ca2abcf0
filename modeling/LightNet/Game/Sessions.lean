/-
# LightNet.Game.Sessions — who a player is, and which calls can change that.

The *identity* of a player is its id and the address its datagrams go to.  Everything that happens
inside a room after a player has been added (inputs, shots, weapons, respawns, names, ticks) leaves
every identity alone; only joining, leaving and a new source address change one.  A call that changes
neither an identity nor the peer index is *quiet*.
-/
import LightNet.Game.RoomManager

namespace LightNet.Game

open LightNet.Foundation LightNet.Net

/-! ## Identities -/

/-- A player's id and the address its datagrams go to. -/
structure Identity where
  playerId : UInt32
  peer : SockAddrIn
  deriving DecidableEq

variable {F : Type}

/-- Who a player is, and where. -/
def GamePlayer.identity (player : GamePlayer F) : Identity := ⟨player.playerId, player.peer⟩

/-- The identity of the player that a room has under an id. -/
def GameRoom.identity (room : GameRoom F) (playerId : UInt32) : Option Identity :=
  (room.players.lookup playerId).map GamePlayer.identity

namespace GameRoom

theorem identity_eq_some {room : GameRoom F} {p : UInt32} {who : Identity} :
    room.identity p = some who ↔ ∃ player, room.findPlayer p = some player ∧ player.identity = who :=
  Option.map_eq_some_iff

theorem identity_modifyPlayer_eq (room : GameRoom F) (p q : UInt32)
    (f : GamePlayer F → GamePlayer F) : (room.modifyPlayer p f).identity q
      = if q = p then (room.findPlayer p).map (fun player => (f player).identity)
        else room.identity q := by
  by_cases hq : q = p
  · subst hq
    simp only [identity, modifyPlayer, UnorderedMap.lookup_modify_self, Option.map_map, if_true]
    rfl
  · simp only [identity, modifyPlayer, UnorderedMap.lookup_modify_ne hq, hq, if_false]

/-- A change of one player that keeps identities keeps all identities of the room. -/
theorem identity_modifyPlayer {f : GamePlayer F → GamePlayer F}
    (hf : ∀ player, (f player).identity = player.identity) (room : GameRoom F) (p q : UInt32) :
    (room.modifyPlayer p f).identity q = room.identity q := by
  rw [identity_modifyPlayer_eq]
  split
  · rename_i hq
    rw [hq]
    exact congrArg (fun g => Option.map g (room.players.lookup p)) (funext hf)
  · rfl

/-- So does a change of every player. -/
theorem identity_mapWithKey {f : UInt32 → GamePlayer F → GamePlayer F}
    (hf : ∀ p player, (f p player).identity = player.identity) (room : GameRoom F) (q : UInt32) :
    ({ room with players := UnorderedMap.mapWithKey f room.players } : GameRoom F).identity q
      = room.identity q := by
  simp only [identity, UnorderedMap.lookup_mapWithKey, Option.map_map]
  exact congrArg (fun g => Option.map g (room.players.lookup q)) (funext (hf q))

@[simp] theorem identity_applyWeapon (room : GameRoom F) (p q : UInt32) (weaponId : UInt8) :
    (room.applyWeapon p weaponId).identity q = room.identity q := by
  unfold applyWeapon
  cases room.findPlayer p with
  | none => rfl
  | some player =>
      dsimp only
      split
      · rfl
      split
      · rfl
      · exact identity_modifyPlayer (by intro player; rfl) room p q

@[simp] theorem identity_applyProfile (room : GameRoom F) (p q : UInt32) (name : Bytes) :
    (room.applyProfile p name).identity q = room.identity q :=
  identity_modifyPlayer (by intro player; rfl) room p q

theorem identity_removePlayer (room : GameRoom F) (p q : UInt32) :
    (room.removePlayer p).identity q = if q = p then none else room.identity q := by
  simp only [identity, removePlayer, UnorderedMap.lookup_erase]
  split <;> rfl

end GameRoom

namespace GameRoomManager

/-- The identity of the player that a binding names. -/
def identity (m : GameRoomManager F) (b : PlayerBinding) : Option Identity :=
  (m.findRoom b.roomId).bind fun room => room.identity b.playerId

theorem identity_eq_some {m : GameRoomManager F} {b : PlayerBinding} {who : Identity} :
    m.identity b = some who ↔ ∃ room player, m.findRoom b.roomId = some room
      ∧ room.findPlayer b.playerId = some player ∧ player.identity = who := by
  simp only [identity, Option.bind_eq_some_iff, GameRoom.identity_eq_some]
  constructor
  · rintro ⟨room, hroom, player, hplayer, hwho⟩
    exact ⟨room, player, hroom, hplayer, hwho⟩
  · rintro ⟨room, player, hroom, hplayer, hwho⟩
    exact ⟨room, hroom, player, hplayer, hwho⟩

/-! ## Changes that keep every identity -/

/-- Nothing that concerns sessions has changed. -/
structure Quiet (m m' : GameRoomManager F) : Prop where
  peerIndex : m'.peerIndex = m.peerIndex
  identity : ∀ b, m'.identity b = m.identity b

theorem Quiet.refl (m : GameRoomManager F) : Quiet m m := ⟨rfl, fun _ => rfl⟩

theorem Quiet.trans {m m' m'' : GameRoomManager F} (h : Quiet m m') (h' : Quiet m' m'') :
    Quiet m m'' where
  peerIndex := h'.peerIndex.trans h.peerIndex
  identity := fun b => (h'.identity b).trans (h.identity b)

theorem findRoom_modifyRoom (m : GameRoomManager F) (r q : UInt32) (f : GameRoom F → GameRoom F) :
    (m.modifyRoom r f).findRoom q = if q = r then (m.findRoom r).map f else m.findRoom q := by
  by_cases hq : q = r
  · subst hq
    simp [modifyRoom, findRoom]
  · simp [modifyRoom, findRoom, hq]

theorem identity_modifyRoom (m : GameRoomManager F) (r : UInt32) (f : GameRoom F → GameRoom F)
    (b : PlayerBinding) : (m.modifyRoom r f).identity b
      = if b.roomId = r then (m.findRoom r).bind fun room => (f room).identity b.playerId
        else m.identity b := by
  simp only [identity, findRoom_modifyRoom]
  split
  · exact Option.bind_map
  · rfl

/-- A change of one room that keeps its identities is quiet. -/
theorem quiet_modifyRoom {m : GameRoomManager F} {r : UInt32} {f : GameRoom F → GameRoom F}
    (hf : ∀ room, m.findRoom r = some room → ∀ p, (f room).identity p = room.identity p) :
    Quiet m (m.modifyRoom r f) where
  peerIndex := rfl
  identity := by
    intro b
    rw [identity_modifyRoom]
    split
    · rename_i hb
      rw [identity, hb]
      cases hroom : m.findRoom r with
      | none => rfl
      | some room => exact hf room hroom b.playerId
    · rfl

/-- A change of the identity of one player in one room is one of one binding of the manager. -/
theorem identity_modifyRoom_at {m : GameRoomManager F} {r p : UInt32} {f : GameRoom F → GameRoom F}
    {g : Option Identity → Option Identity}
    (hf : ∀ room, m.findRoom r = some room →
      ∀ q, (f room).identity q = if q = p then g (room.identity p) else room.identity q)
    (hg : m.findRoom r = none → g none = none) (b : PlayerBinding) :
    (m.modifyRoom r f).identity b = if b = ⟨r, p⟩ then g (m.identity ⟨r, p⟩) else m.identity b := by
  obtain ⟨r', q⟩ := b
  rw [identity_modifyRoom]
  simp only [PlayerBinding.mk.injEq, identity]
  by_cases hr : r' = r
  · subst hr
    cases hroom : m.findRoom r' with
    | none => simp [hg hroom]
    | some room => simp [hf room hroom]
  · simp [hr]

theorem identity_setPeer (m : GameRoomManager F) (b b' : PlayerBinding) (peer : SockAddrIn) :
    (m.setPeer b peer).identity b'
      = if b' = b then (m.identity b).map fun who => { who with peer } else m.identity b' := by
  apply identity_modifyRoom_at (g := Option.map fun who => { who with peer }) _ (fun _ => rfl) b'
  intro room _ q
  rw [GameRoom.identity_modifyPlayer_eq]
  congr 1
  rw [GameRoom.identity, Option.map_map]
  rfl

theorem identity_leaveByPeer {m : GameRoomManager F} {peer : SockAddrIn} {b : PlayerBinding}
    (hb : m.findBinding peer = some b) (b' : PlayerBinding) :
    (m.leaveByPeer peer).identity b' = if b' = b then none else m.identity b' := by
  rw [leaveByPeer, hb]
  exact identity_modifyRoom_at (g := fun _ => none) (fun room _ q => room.identity_removePlayer _ q)
    (fun _ => rfl) b'

/-! ## A new source address -/

theorem identity_of_namedPlayer {m : GameRoomManager F} {packet : GamePacket} {player : GamePlayer F}
    (h : m.namedPlayer packet = some player) :
    m.identity ⟨packet.header.roomId, packet.header.playerId⟩ = some player.identity := by
  unfold namedPlayer at h
  split at h
  · cases h
  · obtain ⟨room, hroom, hplayer⟩ := Option.bind_eq_some_iff.mp h
    exact identity_eq_some.mpr ⟨room, player, hroom, hplayer, rfl⟩

/-- Resolving the sender of a packet finds it bound, finds nobody, or moves the player that the
header names to the sender's address. -/
theorem resolveAndRefreshPeer_cases (m : GameRoomManager F) (peer : SockAddrIn)
    (packet : GamePacket) :
    (∃ b, m.findBinding peer = some b
        ∧ m.resolveAndRefreshPeer peer packet = (some b, m.setPeer b peer))
      ∨ (m.findBinding peer = none ∧ m.namedPlayer packet = none
        ∧ m.resolveAndRefreshPeer peer packet = (none, m))
      ∨ ∃ (b : PlayerBinding) (who : Identity), m.findBinding peer = none
        ∧ (m.namedPlayer packet).isSome ∧ m.identity b = some who
        ∧ (m.resolveAndRefreshPeer peer packet).1 = some b
        ∧ (∀ b', (m.resolveAndRefreshPeer peer packet).2.identity b'
            = if b' = b then some { who with peer } else m.identity b')
        ∧ ∀ key, (m.resolveAndRefreshPeer peer packet).2.peerIndex.lookup key
            = if key = peerKey peer then some b
              else if key = peerKey who.peer then none else m.peerIndex.lookup key := by
  cases hb : m.findBinding peer with
  | some b => exact .inl ⟨b, rfl, by rw [resolveAndRefreshPeer, hb]⟩
  | none =>
      right
      cases hnamed : m.namedPlayer packet with
      | none => exact .inl ⟨rfl, rfl, by simp only [resolveAndRefreshPeer, hb, hnamed]⟩
      | some player =>
          have hid := identity_of_namedPlayer hnamed
          refine .inr ⟨_, _, rfl, rfl, hid, ?_, ?_, ?_⟩
          · simp only [resolveAndRefreshPeer, hb, hnamed]
          · intro b'
            simp only [resolveAndRefreshPeer, hb, hnamed]
            apply (identity_setPeer m _ b' peer).trans
            rw [hid]
            rfl
          · intro key
            simp only [resolveAndRefreshPeer, hb, hnamed]
            -- the old key is erased before the new one is written
            apply (UnorderedMap.lookup_assign _ _ _ _).trans
            split
            · rfl
            · exact UnorderedMap.lookup_erase _ _ _

end GameRoomManager

variable [FloatArith F]

/-! ## What happens inside a room keeps every identity -/

namespace GamePlayer

@[simp] theorem identity_moveTowards (player : GamePlayer F) (input : GameInputPayload F)
    (maxStep : F) : (player.moveTowards input maxStep).identity = player.identity := by
  simp only [moveTowards]
  split
  · rfl
  · split <;> rfl

@[simp] theorem identity_onInput (player : GamePlayer F) (input : GameInputPayload F) :
    (player.onInput input).identity = player.identity := by
  simp only [onInput]
  split
  · rw [identity_moveTowards]
    rfl
  · rfl

@[simp] theorem identity_move (matchOver : Bool) (dt : F) (player : GamePlayer F) :
    (player.move matchOver dt).identity = player.identity := by
  simp only [move]
  split
  · rfl
  · split <;> rfl

@[simp] theorem identity_coolDown (dt : F) (player : GamePlayer F) :
    (player.coolDown dt).identity = player.identity := by
  simp only [coolDown]
  split
  · rfl
  · split <;> rfl

end GamePlayer

namespace GameRoom

@[simp] theorem identity_applyInput (room : GameRoom F) (p q : UInt32) (input : GameInputPayload F) :
    (room.applyInput p input).identity q = room.identity q := by
  unfold applyInput
  cases room.findPlayer p with
  | none => rfl
  | some player =>
      dsimp only
      split
      · rfl
      split
      · rfl
      · exact identity_modifyPlayer (fun _ => GamePlayer.identity_onInput _ _) room p q

@[simp] theorem identity_hit (room : GameRoom F) (shooterId key q : UInt32) (target : GamePlayer F) :
    (room.hit shooterId key target).room.identity q = room.identity q := by
  unfold hit
  split
  · -- a kill changes the target and then the shooter's count
    have hkill : ∀ player : GamePlayer F,
        ({ player with kills := player.kills + 1 } : GamePlayer F).identity = player.identity := by
      intro player
      rfl
    apply (identity_modifyPlayer hkill _ shooterId q).trans
    apply identity_modifyPlayer
    intro player
    rfl
  · apply identity_modifyPlayer
    intro player
    rfl

@[simp] theorem identity_applyFire (ord : IterOrder UInt32) (room : GameRoom F) (p q : UInt32)
    (fire : GameFirePayload F) : (room.applyFire ord p fire).room.identity q = room.identity q := by
  unfold applyFire
  split
  · rfl
  cases room.findPlayer p with
  | none => rfl
  | some shooter =>
      dsimp only
      split
      · rfl
      split
      · rfl
      cases room.findHitTarget ord shooter _ with
      | none => rfl
      | some key =>
          dsimp only
          cases room.findPlayer key with
          | none => rfl
          | some target => exact identity_hit room p key q target

@[simp] theorem identity_applyRespawn (room : GameRoom F) (p q : UInt32) :
    (room.applyRespawn p).identity q = room.identity q := by
  unfold applyRespawn
  cases room.findPlayer p with
  | none => rfl
  | some player =>
      dsimp only
      split
      · rfl
      split
      · rfl
      · exact identity_modifyPlayer (by intro player; rfl) room p q

@[simp] theorem identity_advanceClock (room : GameRoom F) (dt : F) (q : UInt32) :
    (room.advanceClock dt).identity q = room.identity q := by
  unfold advanceClock
  split <;> rfl

@[simp] theorem identity_tick (ord : IterOrder UInt32) (room : GameRoom F) (q : UInt32) :
    (room.tick ord).2.identity q = room.identity q := by
  simp only [tick, simulateMovement]
  rw [identity_mapWithKey (fun _ _ => GamePlayer.identity_move _ _ _)]
  simp only [simulateRespawn]
  rw [identity_mapWithKey (fun _ _ => GamePlayer.identity_coolDown _ _), identity_advanceClock]
  rfl

/-- A player that is added is new and gets the id and the address of the call. -/
theorem addPlayer_cases (room : GameRoom F) (peer : SockAddrIn) (p : UInt32) :
    room.addPlayer peer p = (0, room)
      ∨ p ≠ 0 ∧ room.identity p = none ∧ (room.addPlayer peer p).1 = p
        ∧ ∀ q, (room.addPlayer peer p).2.identity q
            = if q = p then some ⟨p, peer⟩ else room.identity q := by
  by_cases hp : p = 0 ∨ p ∈ room.players
  · left
    rw [addPlayer, if_pos hp]
  · right
    have hadd : room.addPlayer peer p
        = (p, { room with
            players := room.players.insert p (GamePlayer.spawn peer p room.playerCount) }) := by
      rw [addPlayer, if_neg hp]
    rw [not_or] at hp
    refine ⟨hp.1, ?_, by rw [hadd], ?_⟩
    · rw [identity, AList.lookup_eq_none.mpr hp.2]
      rfl
    · intro q
      rw [hadd]
      simp only [identity, UnorderedMap.lookup_insert]
      split <;> rfl

end GameRoom

namespace GameRoomManager

theorem quiet_tickAll [FloatBits F] (m : GameRoomManager F) (ord : IterOrder UInt32) :
    Quiet m (m.tickAll ord).2 where
  peerIndex := rfl
  identity := by
    intro b
    simp only [identity, findRoom, tickAll, UnorderedMap.lookup_mapWithKey]
    cases m.rooms.lookup b.roomId with
    | none => rfl
    | some room => exact GameRoom.identity_tick ord room b.playerId

/-! ## Joining -/

theorem quiet_ensureRoom (m : GameRoomManager F) : Quiet m m.ensureRoom := by
  unfold ensureRoom
  split
  · exact Quiet.refl m
  · rename_i h
    refine ⟨rfl, ?_⟩
    intro b
    simp only [identity, findRoom, UnorderedMap.lookup_insert]
    split
    · -- the new room has no players, and there was none under its id
      rename_i hb
      rw [hb, AList.lookup_eq_none.mpr h]
      rfl
    · rfl

/-- Taking a peer in fails without a trace in the sessions, or adds one player. -/
theorem takeIn_cases (m : GameRoomManager F) {room : GameRoom F} (peer : SockAddrIn)
    (hroom : m.findRoom kSingleRoomId = some room) :
    (Quiet m (m.takeIn room peer).2 ∧ (m.takeIn room peer).1 = {})
      ∨ ∃ b : PlayerBinding, m.identity b = none ∧ b.playerId ≠ 0
        ∧ (m.takeIn room peer).1 = { roomId := b.roomId, playerId := b.playerId, ok := true }
        ∧ (∀ b', (m.takeIn room peer).2.identity b'
            = if b' = b then some ⟨b.playerId, peer⟩ else m.identity b')
        ∧ ∀ key, (m.takeIn room peer).2.peerIndex.lookup key
            = if key = peerKey peer then some b else m.peerIndex.lookup key := by
  -- the id is taken in either case; the room may still refuse it
  obtain hadd | ⟨hp, hnone, hfst, hid⟩ := room.addPlayer_cases peer m.nextPlayerId
  · left
    have htaken : m.takeIn room peer = ({}, { m with nextPlayerId := m.nextPlayerId + 1 }) := by
      simp only [takeIn, hadd, if_true]
    rw [htaken]
    exact ⟨⟨rfl, fun _ => rfl⟩, rfl⟩
  · right
    have hfst : (room.addPlayer peer m.nextPlayerId).1 ≠ 0 := by rwa [hfst]
    refine ⟨⟨kSingleRoomId, m.nextPlayerId⟩, ?_, hp, ?_, ?_, ?_⟩
    · rw [identity, hroom]
      exact hnone
    · simp only [takeIn, hfst, if_false]
    · intro b'
      have hmod : (m.takeIn room peer).2.identity b'
          = (m.modifyRoom kSingleRoomId fun _ => (room.addPlayer peer m.nextPlayerId).2).identity b' := by
        simp only [takeIn, hfst, if_false]
        rfl
      rw [hmod]
      apply identity_modifyRoom_at (g := fun _ => some ⟨m.nextPlayerId, peer⟩)
      · intro room' hroom' q
        obtain rfl : room' = room := Option.some.inj (hroom'.symm.trans hroom)
        exact hid q
      · intro hnone
        exact absurd (hnone.symm.trans hroom) (by simp)
    · intro key
      simp only [takeIn, hfst, if_false]
      exact UnorderedMap.lookup_assign _ _ _ _

/-- Joining finds the peer bound, fails without a trace in the sessions, or adds one player. -/
theorem join_cases (m : GameRoomManager F) (peer : SockAddrIn) (desired : UInt32) :
    (∃ b, m.findBinding peer = some b
        ∧ m.join peer desired = ({ roomId := b.roomId, playerId := b.playerId, ok := true }, m))
      ∨ (Quiet m (m.join peer desired).2 ∧ (m.join peer desired).1 = {})
      ∨ ∃ b : PlayerBinding, m.findBinding peer = none ∧ m.identity b = none ∧ b.playerId ≠ 0
        ∧ (m.join peer desired).1 = { roomId := b.roomId, playerId := b.playerId, ok := true }
        ∧ (∀ b', (m.join peer desired).2.identity b'
            = if b' = b then some ⟨b.playerId, peer⟩ else m.identity b')
        ∧ ∀ key, (m.join peer desired).2.peerIndex.lookup key
            = if key = peerKey peer then some b else m.peerIndex.lookup key := by
  cases hb : m.peerIndex.lookup (peerKey peer) with
  | some b => exact .inl ⟨b, hb, by rw [join, hb]⟩
  | none =>
      right
      have hq : Quiet m m.ensureRoom := quiet_ensureRoom m
      cases hroom : m.ensureRoom.findRoom kSingleRoomId with
      | none =>
          have hjoin : m.join peer desired = ({}, m.ensureRoom) := by simp only [join, hb, hroom]
          rw [hjoin]
          exact .inl ⟨hq, rfl⟩
      | some room =>
          have hjoin : m.join peer desired = m.ensureRoom.takeIn room peer := by
            simp only [join, hb, hroom]
          rw [hjoin]
          obtain ⟨hqa, hfail⟩ | ⟨b, hnone, hp, hres, hid, hidx⟩ := m.ensureRoom.takeIn_cases peer hroom
          · exact .inl ⟨hq.trans hqa, hfail⟩
          · refine .inr ⟨b, hb, (hq.identity b).symm.trans hnone, hp, hres, ?_, ?_⟩
            · intro b'
              rw [hid, hq.identity]
            · intro key
              rw [hidx, hq.peerIndex]

theorem findBinding_join {m : GameRoomManager F} {peer : SockAddrIn} {desired : UInt32}
    (hok : (m.join peer desired).1.ok = true) :
    (m.join peer desired).2.findBinding peer
      = some ⟨(m.join peer desired).1.roomId, (m.join peer desired).1.playerId⟩ := by
  obtain ⟨b, hb, hjoin⟩ | ⟨-, hfail⟩ | ⟨b, -, -, -, hres, -, hidx⟩ := m.join_cases peer desired
  · rw [hjoin]
    exact hb
  · rw [hfail] at hok
    cases hok
  · rw [hres, findBinding, hidx, if_pos rfl]

end GameRoomManager

end LightNet.Game
