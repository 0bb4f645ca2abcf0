/-
# LightNet.Game.Handling — what handling a packet comes to.

Seen from outside, a manager is the records of its players and the clocks of its rooms.  Handling a
packet is one of three things: somebody joins, the packet is dropped (with at most an address that has
been replaced), or the player that the packet speaks for does a deed in its room and the events of the
deed are announced there.
-/
import LightNet.Game.Deeds

namespace LightNet.Game

open LightNet.Foundation LightNet.Core LightNet.Net
open FloatArith (sqrt sin cos lt le)

variable {F : Type}

/-! ## The view -/

namespace GameRoomManager

/-- The record of the player that a binding names. -/
def record (m : GameRoomManager F) (b : PlayerBinding) : Option (GamePlayer F) :=
  (m.findRoom b.roomId).bind fun room => room.findPlayer b.playerId

/-- The standing of a player, wherever it is. -/
def standing (m : GameRoomManager F) (b : PlayerBinding) : Option (Standing F) :=
  (m.record b).map GamePlayer.standing

/-- Whether the match in a room is over, and how long it still takes. -/
def clock (m : GameRoomManager F) (r : UInt32) : Option (Bool × UInt32) :=
  (m.findRoom r).map fun room => (room.matchOver, room.timeLeftSec)

theorem record_eq_some {m : GameRoomManager F} {b : PlayerBinding} {player : GamePlayer F} :
    m.record b = some player ↔ ∃ room, m.findRoom b.roomId = some room
      ∧ room.findPlayer b.playerId = some player := Option.bind_eq_some_iff

theorem record_of_findRoom {m : GameRoomManager F} {r : UInt32} {room : GameRoom F}
    (hroom : m.findRoom r = some room) (q : UInt32) : m.record ⟨r, q⟩ = room.findPlayer q := by
  rw [record, hroom]
  rfl

theorem identity_eq_record (m : GameRoomManager F) (b : PlayerBinding) :
    m.identity b = (m.record b).map GamePlayer.identity := by
  rw [identity, record, Option.map_bind]
  rfl

theorem modifyRoom_congr {m : GameRoomManager F} {r : UInt32} {room : GameRoom F}
    (hroom : m.findRoom r = some room) (f : GameRoom F → GameRoom F) :
    m.modifyRoom r f = m.modifyRoom r fun _ => f room := by
  unfold modifyRoom
  congr 1
  apply UnorderedMap.modify_congr
  intro room' hroom'
  obtain rfl : room' = room := Option.some.inj (hroom'.symm.trans hroom)
  rfl

theorem record_modifyRoom (m : GameRoomManager F) (r : UInt32) (f : GameRoom F → GameRoom F)
    (b : PlayerBinding) : (m.modifyRoom r f).record b
      = if b.roomId = r then (m.findRoom r).bind fun room => (f room).findPlayer b.playerId
        else m.record b := by
  simp only [record, findRoom_modifyRoom]
  split
  · exact Option.bind_map
  · rfl

/-- What the deed of one room leaves of the records. -/
theorem record_act {m : GameRoomManager F} {r : UInt32} {room : GameRoom F}
    (hroom : m.findRoom r = some room) (room' : GameRoom F) (b : PlayerBinding) :
    (m.modifyRoom r fun _ => room').record b
      = if b.roomId = r then room'.findPlayer b.playerId else m.record b := by
  rw [record_modifyRoom, hroom]
  rfl

/-- Who is not touched by the deed of one room. -/
theorem record_act_of_same {m : GameRoomManager F} {r : UInt32} {room : GameRoom F}
    (hroom : m.findRoom r = some room) {room' : GameRoom F} {b : PlayerBinding}
    (hsame : b.roomId = r → room'.findPlayer b.playerId = room.findPlayer b.playerId) :
    (m.modifyRoom r fun _ => room').record b = m.record b := by
  rw [record_act hroom]
  split
  · rename_i hr
    rw [hsame hr, ← record_of_findRoom hroom, ← hr]
  · rfl

/-- What a room that is found says of the clock. -/
theorem clock_of_findRoom {m : GameRoomManager F} {r : UInt32} {room : GameRoom F}
    (hroom : m.findRoom r = some room) : m.clock r = some (room.matchOver, room.timeLeftSec) := by
  rw [clock, hroom, Option.map_some]

/-- A clock that is known is the one of the room that is found. -/
theorem clock_eq_some {m : GameRoomManager F} {r : UInt32} {room : GameRoom F} {done : Bool}
    {time : UInt32} (hclock : m.clock r = some (done, time)) (hroom : m.findRoom r = some room) :
    room.matchOver = done ∧ room.timeLeftSec = time := by
  rw [clock_of_findRoom hroom] at hclock
  exact Prod.mk.inj (Option.some.inj hclock)

theorem clock_modifyRoom {r : UInt32} {f : GameRoom F → GameRoom F} (m : GameRoomManager F)
    (hf : ∀ room, m.findRoom r = some room →
      (f room).matchOver = room.matchOver ∧ (f room).timeLeftSec = room.timeLeftSec) (r' : UInt32) :
    (m.modifyRoom r f).clock r' = m.clock r' := by
  simp only [clock, findRoom_modifyRoom]
  split
  · rename_i hr
    subst hr
    cases hroom : m.findRoom r' with
    | none => rfl
    | some room =>
        obtain ⟨hover, htime⟩ := hf room hroom
        simp only [Option.map_some, hover, htime]
  · rfl

theorem record_setPeer (m : GameRoomManager F) (b b' : PlayerBinding) (peer : SockAddrIn) :
    (m.setPeer b peer).record b'
      = if b' = b then (m.record b).map fun player => { player with peer } else m.record b' := by
  obtain ⟨r, p⟩ := b
  obtain ⟨r', q⟩ := b'
  rw [setPeer, record_modifyRoom]
  simp only [PlayerBinding.mk.injEq, GameRoom.findPlayer_modifyPlayer, record]
  by_cases hr : r' = r
  · subst hr
    cases m.findRoom r' with
    | none => simp
    | some room => simp
  · simp [hr]

/-! ## Who a packet speaks for -/

/-- The player that a packet from `peer` acts as: the one that the address is bound to, or, from an
unbound address, the one that the header names. -/
def sender (m : GameRoomManager F) (peer : SockAddrIn) (packet : GamePacket) : Option PlayerBinding :=
  match m.findBinding peer with
  | some b => some b
  | none => (m.namedPlayer packet).map fun _ => ⟨packet.header.roomId, packet.header.playerId⟩

theorem resolveAndRefreshPeer_fst (m : GameRoomManager F) (peer : SockAddrIn) (packet : GamePacket) :
    (m.resolveAndRefreshPeer peer packet).1 = m.sender peer packet := by
  unfold resolveAndRefreshPeer sender
  cases m.findBinding peer with
  | some b => rfl
  | none => cases m.namedPlayer packet <;> rfl

/-- Some addresses have been replaced, and nothing else has changed that is seen of the players. -/
structure Readdressed (m m' : GameRoomManager F) : Prop where
  record : ∃ address : PlayerBinding → SockAddrIn → SockAddrIn, ∀ b,
    m'.record b = (m.record b).map fun player => { player with peer := address b player.peer }
  clock : ∀ r, m'.clock r = m.clock r

theorem Readdressed.refl (m : GameRoomManager F) : Readdressed m m where
  record := ⟨fun _ peer => peer, fun b => by cases m.record b <;> rfl⟩
  clock := fun _ => rfl

theorem Readdressed.standing {m m' : GameRoomManager F} (h : Readdressed m m') (b : PlayerBinding) :
    m'.standing b = m.standing b := by
  obtain ⟨address, hrecord⟩ := h.record
  rw [GameRoomManager.standing, GameRoomManager.standing, hrecord, Option.map_map]
  rfl

theorem readdressed_setPeer (m : GameRoomManager F) (b : PlayerBinding) (peer : SockAddrIn) :
    Readdressed m (m.setPeer b peer) where
  record := by
    refine ⟨fun b' old => if b' = b then peer else old, ?_⟩
    intro b'
    rw [record_setPeer]
    by_cases hb : b' = b
    · subst hb
      simp only [if_true]
    · simp only [if_neg hb]
      cases m.record b' <;> rfl
  clock := m.clock_modifyRoom fun _ _ => ⟨rfl, rfl⟩

theorem readdressed_resolve (m : GameRoomManager F) (peer : SockAddrIn) (packet : GamePacket) :
    Readdressed m (m.resolveAndRefreshPeer peer packet).2 := by
  unfold resolveAndRefreshPeer
  cases m.findBinding peer with
  | some b => exact m.readdressed_setPeer b peer
  | none =>
      cases m.namedPlayer packet with
      | none => exact .refl m
      | some player =>
          -- the index is no part of the view
          have h := m.readdressed_setPeer ⟨packet.header.roomId, packet.header.playerId⟩ peer
          exact ⟨h.record, h.clock⟩

theorem Refines.filed {m : GameRoomManager F} {e : Bytes ≃. PlayerBinding} (hm : Refines m e)
    {r : UInt32} {room : GameRoom F} (hroom : m.findRoom r = some room) : room.Filed := by
  intro q player hplayer
  have hid : m.identity ⟨r, q⟩ = some player.identity := by
    rw [identity_eq_record, record_of_findRoom hroom, hplayer]
    rfl
  obtain ⟨hown, hnz⟩ := hm.ids _ _ hid
  have hown : player.playerId = q := hown
  exact ⟨hown, hown ▸ hnz⟩

/-- Whoever a packet speaks for is in its room. -/
theorem Refines.record_of_sender {m : GameRoomManager F} {e : Bytes ≃. PlayerBinding}
    (hm : Refines m e) {peer : SockAddrIn} {packet : GamePacket} {b : PlayerBinding}
    (hs : m.sender peer packet = some b) : ∃ player, m.record b = some player := by
  unfold sender at hs
  cases hb : m.findBinding peer with
  | some b' =>
      rw [hb] at hs
      obtain rfl := Option.some.inj hs
      obtain ⟨-, room, player, hroom, hplayer, -⟩ := hm.entry hb
      exact ⟨player, record_eq_some.mpr ⟨room, hroom, hplayer⟩⟩
  | none =>
      rw [hb] at hs
      obtain ⟨player, hnamed, rfl⟩ := Option.map_eq_some_iff.mp hs
      unfold namedPlayer at hnamed
      split at hnamed
      · cases hnamed
      · exact ⟨player, hnamed⟩

/-- Whoever a packet speaks for is in its room once the address has been looked at. -/
theorem Refines.player_of_sender {m : GameRoomManager F} {e : Bytes ≃. PlayerBinding}
    (hm : Refines m e) {peer : SockAddrIn} {packet : GamePacket} {b : PlayerBinding}
    (hs : m.sender peer packet = some b) :
    ∃ room player, (m.resolveAndRefreshPeer peer packet).2.findRoom b.roomId = some room
      ∧ room.findPlayer b.playerId = some player := by
  obtain ⟨player, hplayer⟩ := hm.record_of_sender hs
  obtain ⟨address, hrecord⟩ := (m.readdressed_resolve peer packet).record
  have hnew := hrecord b
  rw [hplayer] at hnew
  obtain ⟨room, hroom, hfound⟩ := record_eq_some.mp hnew
  exact ⟨room, _, hroom, hfound⟩

/-! ## Outcomes -/

variable [FloatArith F]

/-- What handling a packet comes to: the datagrams, and the manager after it. -/
inductive Outcome (m : GameRoomManager F) (env : Environment) (packet : GamePacket)
    (peer : SockAddrIn) : Handled F → Prop
  | join {sent : List SendTo} (desired : UInt32) (htype : packet.header.msgType = .kC2SJoin)
      (hsent : events sent = []) : Outcome m env packet peer (sent, (m.join peer desired).2)
  | drop {sent : List SendTo} {m' : GameRoomManager F}
      (hm : m' = m ∨ m' = (m.resolveAndRefreshPeer peer packet).2) (hsent : events sent = [])
      (hsender : packet.header.msgType = .kC2SRespawn → m.sender peer packet = none) :
      Outcome m env packet peer (sent, m')
  | act {b : PlayerBinding} {room room' : GameRoom F} {evs : List GameEventPayload}
      (hsender : m.sender peer packet = some b)
      (hroom : (m.resolveAndRefreshPeer peer packet).2.findRoom b.roomId = some room)
      (hdeed : room.Deed packet.header.msgType b.playerId room' evs) :
      Outcome m env packet peer (evs.flatMap (sendEvent env.ord room'),
        (m.resolveAndRefreshPeer peer packet).2.modifyRoom b.roomId fun _ => room')

section

variable {m : GameRoomManager F} {e : Bytes ≃. PlayerBinding} {env : Environment}
  {packet : GamePacket} {peer : SockAddrIn}

/-! ## One lemma for each handler -/

theorem outcome_handleJoin (hm : Refines m e) (htype : packet.header.msgType = .kC2SJoin) :
    Outcome m env packet peer (m.handleJoin packet peer) := by
  have hother : packet.header.msgType = .kC2SRespawn → m.sender peer packet = none := by
    intro hrespawn
    rw [htype] at hrespawn
    exact absurd hrespawn (by decide)
  unfold handleJoin
  cases GameCodec.decodeJoin packet with
  | none => exact .drop (.inl rfl) events_nil hother
  | some req =>
      dsimp only
      split
      · -- the address of the new player is written once more
        rename_i hok
        obtain ⟨e', -, hm'⟩ := join_follows hm peer req.desiredRoomId
        rw [hm'.setPeer_of_bound (findBinding_join hok)]
        apply Outcome.join req.desiredRoomId htype
        apply events_eq_nil
        intro d hd
        rw [List.mem_singleton] at hd
        rw [hd]
        have hack : GameMsgType.kS2CJoinAck ≠ .kS2CEvent := by decide
        apply eventOf_of_type_ne hack
        simp only [GameCodec.encodeJoinAck, GameCodec.appendU32, List.length_append, leBytes_length]
        decide
      · exact .join req.desiredRoomId htype events_nil

/-- A message of another type is dropped, or its sender acts. -/
theorem outcome_handleAs (hm : Refines m e) {α : Type} {decode : GamePacket → Option α}
    {act : GameRoomManager F → PlayerBinding → GameRoom F → α → Handled F}
    (hdecode : packet.header.msgType = .kC2SRespawn → (decode packet).isSome)
    (hact : ∀ b room payload, m.sender peer packet = some b →
      (m.resolveAndRefreshPeer peer packet).2.findRoom b.roomId = some room →
      Outcome m env packet peer (act (m.resolveAndRefreshPeer peer packet).2 b room payload)) :
    Outcome m env packet peer (m.handleAs packet peer decode act) := by
  have hfst := m.resolveAndRefreshPeer_fst peer packet
  have hsafe : ∀ b, m.sender peer packet = some b →
      ∃ room player, (m.resolveAndRefreshPeer peer packet).2.findRoom b.roomId = some room
        ∧ room.findPlayer b.playerId = some player := by
    intro b hs
    exact hm.player_of_sender hs
  unfold handleAs
  generalize hres : m.resolveAndRefreshPeer peer packet = res at hfst hsafe hact
  obtain ⟨_ | b, m'⟩ := res
  · refine .drop (.inr ?_) events_nil fun _ => hfst.symm
    rw [hres]
  · cases hdec : decode packet with
    | none =>
        refine .drop (.inr ?_) events_nil ?_
        · rw [hres]
        · intro htype
          have hsome := hdecode htype
          rw [hdec] at hsome
          cases hsome
    | some payload =>
        obtain ⟨room, -, hroom, -⟩ := hsafe b hfst.symm
        simp only [hroom]
        exact hact b room payload hfst.symm hroom

/-- A change of the sender that nothing is announced of. -/
theorem outcome_quiet {b : PlayerBinding} {room : GameRoom F} {f : GameRoom F → GameRoom F}
    (hsender : m.sender peer packet = some b)
    (hroom : (m.resolveAndRefreshPeer peer packet).2.findRoom b.roomId = some room)
    (hdeed : room.Deed packet.header.msgType b.playerId (f room) []) :
    Outcome m env packet peer
      ([], (m.resolveAndRefreshPeer peer packet).2.modifyRoom b.roomId f) := by
  rw [modifyRoom_congr hroom f]
  exact .act hsender hroom hdeed

theorem outcome_handlePing (htype : packet.header.msgType = .kC2SPing) :
    Outcome m env packet peer (m.handlePing env packet peer) := by
  refine .drop (.inr rfl) ?_ ?_
  · have hpong : GameMsgType.kS2CPong ≠ .kS2CEvent := by decide
    apply events_eq_nil
    intro d hd
    unfold sendPong at hd
    split at hd
    · exact absurd hd List.not_mem_nil
    · rw [List.mem_singleton] at hd
      rw [hd]
      apply eventOf_of_type_ne hpong
      simp only [GameCodec.encodePong, GameCodec.appendU64, List.length_append, leBytes_length]
      decide
  · intro hrespawn
    rw [htype] at hrespawn
    exact absurd hrespawn (by decide)

theorem outcome_handleChat (hm : Refines m e) (htype : packet.header.msgType = .kC2SChat) :
    Outcome m env packet peer (m.handleChat env packet peer) := by
  have hother : packet.header.msgType ≠ .kC2SRespawn := by
    rw [htype]
    decide
  apply outcome_handleAs hm
  · intro hrespawn
    exact absurd hrespawn hother
  · intro b room chat hsender hroom
    refine .drop (.inr rfl) ?_ fun hrespawn => absurd hrespawn hother
    have hchat : GameMsgType.kS2CChat ≠ .kS2CEvent := by decide
    apply events_eq_nil
    apply events_broadcast hchat
    simp only [GameCodec.encodeChat, GameCodec.appendU32, GameCodec.appendU16, List.length_append,
      leBytes_length, List.length_take]
    omega

theorem outcome_handleRespawn (hm : Refines m e) (htype : packet.header.msgType = .kC2SRespawn) :
    Outcome m env packet peer (m.handleRespawn env packet peer) := by
  apply outcome_handleAs hm
  · intro _
    rfl
  · intro b room _ hsender hroom
    obtain ⟨room', player, hroom', hplayer⟩ := hm.player_of_sender hsender
    obtain rfl : room' = room := Option.some.inj (hroom'.symm.trans hroom)
    have hout : Outcome m env packet peer _ :=
      .act hsender hroom (GameRoom.deed_applyRespawn hplayer htype)
    rw [List.flatMap_singleton] at hout
    exact hout

variable [FloatBits F]

theorem outcome_handleFire (hm : Refines m e) (htype : packet.header.msgType = .kC2SFire) :
    Outcome m env packet peer (m.handleFire env packet peer) := by
  obtain ⟨e', -, hm'⟩ := resolveAndRefreshPeer_follows hm peer packet
  apply outcome_handleAs hm
  · intro hrespawn
    rw [htype] at hrespawn
    exact absurd hrespawn (by decide)
  · intro b room fire hsender hroom
    have hdeed := (GameRoom.shot_applyFire (hm'.filed hroom) env.ord b.playerId fire).deed htype
    have hout : Outcome m env packet peer _ := .act hsender hroom hdeed
    -- the datagrams are those of the events, one after the other
    have hsent : (GameRoom.fireEvents (room.applyFire env.ord b.playerId fire) b.playerId).flatMap
        (sendEvent env.ord (room.applyFire env.ord b.playerId fire).room)
        = if (room.applyFire env.ord b.playerId fire).targetId ≠ 0 then
            sendEvent env.ord (room.applyFire env.ord b.playerId fire).room
              (hitEvent (room.applyFire env.ord b.playerId fire).targetId b.playerId)
            ++ if (room.applyFire env.ord b.playerId fire).killed then
                sendEvent env.ord (room.applyFire env.ord b.playerId fire).room
                  (killEvent (room.applyFire env.ord b.playerId fire).targetId b.playerId)
              else []
          else [] := by
      unfold GameRoom.fireEvents
      split
      · split <;> simp only [List.flatMap_cons, List.flatMap_nil, List.append_nil]
      · rfl
    rw [hsent] at hout
    exact hout

/-- **Handling a packet is a join, a drop, or a deed of the sender.** -/
theorem handlePacket_outcome (hm : Refines m e) (env : Environment) (packet : GamePacket)
    (peer : SockAddrIn) : Outcome m env packet peer (m.handlePacket env packet peer) := by
  have hother : ∀ {type : GameMsgType}, packet.header.msgType = type → type ≠ .kC2SRespawn →
      packet.header.msgType ≠ .kC2SRespawn := by
    intro type htype hne
    rwa [htype]
  unfold handlePacket
  dsimp only
  split
  · rename_i htype
    exact outcome_handleJoin hm htype
  split
  · rename_i htype
    apply outcome_handleAs hm fun h => absurd h (hother htype (by decide))
    intro b room input hsender hroom
    exact outcome_quiet hsender hroom
      (GameRoom.deed_applyInput (hother htype (by decide)) b.playerId input)
  split
  · rename_i htype
    exact outcome_handleFire hm htype
  split
  · rename_i htype
    exact outcome_handleChat hm htype
  split
  · rename_i htype
    apply outcome_handleAs hm fun h => absurd h (hother htype (by decide))
    intro b room w hsender hroom
    exact outcome_quiet hsender hroom
      (GameRoom.deed_applyWeapon (hother htype (by decide)) b.playerId w.weaponId)
  split
  · rename_i htype
    exact outcome_handleRespawn hm htype
  split
  · rename_i htype
    apply outcome_handleAs hm fun h => absurd h (hother htype (by decide))
    intro b room profile hsender hroom
    exact outcome_quiet hsender hroom
      (GameRoom.deed_applyProfile (hother htype (by decide)) b.playerId profile.name)
  split
  · rename_i htype
    exact outcome_handlePing htype
  · rename_i hrespawn _ _
    exact .drop (.inl rfl) events_nil fun h => absurd h hrespawn

end

end GameRoomManager

end LightNet.Game
