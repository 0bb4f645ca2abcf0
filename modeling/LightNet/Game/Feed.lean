/-
# LightNet.Game.Feed — all players hear the same things in the same order.

Snapshots, match states, events and chat go to every player of the room, each copy under the ids of its
receiver.  So what the server announces is one sequence for everybody, whatever the order in which it
walks through its tables, whoever joins or moves to another address meanwhile.  The ticks in the
sequence are numbered without a gap, and the match state comes after every so many of them.
-/
import LightNet.Foundation.Feed
import LightNet.Game.Addressed

namespace LightNet.Game

open LightNet.Foundation LightNet.Core LightNet.Net

variable {F : Type}

/-! ## Announcements -/

/-- A datagram without its receiver. -/
structure Announcement where
  type : GameMsgType
  seq : UInt32 := 0
  tick : UInt32
  payload : Bytes

namespace Announcement

/-- The copy for a player. -/
def packetTo (a : Announcement) (b : PlayerBinding) : Bytes :=
  let buf := GameCodec.buildPacket a.type b.roomId b.playerId a.seq a.tick a.payload
  buf.peek buf.readableBytes

/-- It belongs to a tick. -/
def ofTick (a : Announcement) : Bool := a.type == .kS2CSnapshot || a.type == .kS2CMatchState

/-- What its header says beside the ids. -/
def stamp (a : Announcement) : GameMsgType × UInt32 × UInt32 := (a.type, a.seq, a.tick)

end Announcement

namespace GameRoomManager

/-! ## Broadcasts -/

/-- What is sent to an address. -/
def mail (peer : SockAddrIn) (sent : List SendTo) : List Bytes :=
  (sent.filter fun d => d.peer = peer).map SendTo.data

theorem mail_append (peer : SockAddrIn) (sent sent' : List SendTo) :
    mail peer (sent ++ sent') = mail peer sent ++ mail peer sent' := by
  rw [mail, List.filter_append, List.map_append]
  rfl

/-- What every reachable manager is. -/
structure Consistent (m : GameRoomManager F) : Prop where
  refines : ∃ e, Refines m e
  numbered : m.Numbered
  oneRoom : m.OneRoom

/-- The addresses hear `feed`, each of them under its own ids. -/
def Hear (out : Handled F) (feed : List Announcement) : Prop :=
  ∀ peer, mail peer out.1 = feed.filterMap fun a => (out.2.findBinding peer).map a.packetTo

theorem hear_nil (m : GameRoomManager F) : Hear ([], m) [] := fun _ => rfl

theorem Hear.append {m : GameRoomManager F} {sent sent' : List SendTo} {feed feed' : List Announcement}
    (h : Hear (sent, m) feed) (h' : Hear (sent', m) feed') : Hear (sent ++ sent', m) (feed ++ feed') := by
  intro peer
  rw [mail_append, h peer, h' peer, List.filterMap_append]

section

variable {m : GameRoomManager F}

/-- The player of a room that a bound address belongs to. -/
theorem Consistent.player_of_binding (h : m.Consistent) {r : UInt32} {room : GameRoom F}
    (hroom : m.findRoom r = some room) {peer : SockAddrIn} {b : PlayerBinding}
    (hb : m.findBinding peer = some b) :
    b.roomId = room.roomId ∧ ∃ player, room.findPlayer b.playerId = some player
      ∧ player.playerId = b.playerId ∧ player.peer = peer := by
  obtain ⟨e, hm⟩ := h.refines
  obtain ⟨-, room', player, hroom', hplayer, hid, hkey⟩ := hm.entry hb
  have hsame : b.roomId = r := (h.oneRoom _ _ hroom').trans (h.oneRoom _ _ hroom).symm
  rw [hsame] at hroom'
  obtain rfl := Option.some.inj (hroom'.symm.trans hroom)
  exact ⟨hsame.trans (h.numbered _ _ hroom).symm, player, hplayer, hid, toIpPort_injective hkey⟩

/-- **A broadcast** reaches every player once, and nobody else. -/
theorem Consistent.hear_broadcast (h : m.Consistent) {r : UInt32} {room : GameRoom F}
    (hroom : m.findRoom r = some room) (ord : IterOrder UInt32) (a : Announcement) :
    Hear (broadcast ord room a.type a.seq a.tick a.payload, m) [a] := by
  intro peer
  obtain ⟨e, hm⟩ := h.refines
  have hmail : mail peer (broadcast ord room a.type a.seq a.tick a.payload)
      = ((UnorderedMap.iterate ord room.players).filter fun entry => entry.2.peer = peer).map
          fun entry => a.packetTo ⟨room.roomId, entry.2.playerId⟩ := by
    rw [mail, broadcast, GameRoom.allPlayers, UnorderedMap.values, List.map_map, List.filter_map,
      List.map_map]
    rfl
  rw [hmail]
  cases hb : m.findBinding peer with
  | none =>
      rw [List.filter_eq_nil_iff.mpr]
      · rfl
      intro entry hentry hpeer
      have hmember : entry.2 ∈ room.allPlayers ord := List.mem_map_of_mem hentry
      have hbound := hm.findBinding_of_mem h.numbered hroom hmember
      rw [of_decide_eq_true hpeer, hb] at hbound
      cases hbound
  | some b =>
      obtain ⟨hr, player, hplayer, hid, hpeer⟩ := h.player_of_binding hroom hb
      have hone : ∀ p other, room.findPlayer p = some other →
          (decide (other.peer = peer) = true ↔ p = b.playerId) := by
        intro p other hother
        rw [decide_eq_true_iff]
        constructor
        · intro hsame
          have hkey := hm.player hroom hother
          rw [hsame] at hkey
          exact congrArg PlayerBinding.playerId (Option.some.inj (hkey.symm.trans hb))
        · rintro rfl
          rw [Option.some.inj (hother.symm.trans hplayer), hpeer]
      rw [UnorderedMap.filter_iterate (P := fun entry => entry.2.peer = peer) hplayer hone,
        List.map_singleton, hid, ← hr]
      rfl

/-! ## What a packet makes them hear -/

/-- A room that has kept its players is a room of the manager again. -/
theorem Consistent.replace (h : m.Consistent) {r : UInt32} {room room' : GameRoom F}
    (hroom : m.findRoom r = some room) (hid : room'.roomId = room.roomId)
    (hsame : ∀ p, room'.identity p = room.identity p) :
    (m.modifyRoom r fun _ => room').Consistent
      ∧ (m.modifyRoom r fun _ => room').findRoom r = some room' := by
  have hold : ∀ old, m.findRoom r = some old → old = room :=
    fun old hold => Option.some.inj (hold.symm.trans hroom)
  refine ⟨⟨?_, ?_, h.oneRoom.modifyRoom r _⟩, ?_⟩
  · obtain ⟨e, hm⟩ := h.refines
    refine ⟨e, (quiet_modifyRoom fun old hfind p => ?_).refines hm⟩
    rw [hold old hfind]
    exact hsame p
  · refine h.numbered.modifyRoom fun old hfind => ?_
    rw [hold old hfind]
    exact hid
  · rw [findRoom_modifyRoom, if_pos rfl, hroom, Option.map_some]

theorem Consistent.resolve (h : m.Consistent) (peer : SockAddrIn) (packet : GamePacket) :
    (m.resolveAndRefreshPeer peer packet).2.Consistent where
  refines := by
    obtain ⟨e, hm⟩ := h.refines
    obtain ⟨e', -, hm'⟩ := resolveAndRefreshPeer_follows hm peer packet
    exact ⟨e', hm'⟩
  numbered := h.numbered.resolve peer packet
  oneRoom := h.oneRoom.resolve peer packet

/-- Something else than a tick is announced, or nothing. -/
def Talks (out : Handled F) : Prop := ∃ feed, (∀ a ∈ feed, a.ofTick = false) ∧ Hear out feed

theorem talks_nothing (m : GameRoomManager F) : Talks ([], m) :=
  ⟨[], fun _ ha => absurd ha List.not_mem_nil, hear_nil m⟩

/-- An event is announced in the room as it is then. -/
theorem Consistent.hear_sendEvent (h : m.Consistent) {r : UInt32} {room room' : GameRoom F}
    (hroom : m.findRoom r = some room) (hid : room'.roomId = room.roomId)
    (hsame : ∀ p, room'.identity p = room.identity p) (ord : IterOrder UInt32) (ev : GameEventPayload) :
    Hear (sendEvent ord room' ev, m.modifyRoom r fun _ => room')
      [⟨.kS2CEvent, 0, room'.serverTick, GameCodec.encodeEvent ev⟩] := by
  obtain ⟨hafter, hroom'⟩ := h.replace hroom hid hsame
  exact hafter.hear_broadcast hroom' ord ⟨.kS2CEvent, 0, room'.serverTick, GameCodec.encodeEvent ev⟩

theorem Consistent.talks_handleAs (h : m.Consistent) {α : Type} (packet : GamePacket)
    (peer : SockAddrIn) (decode : GamePacket → Option α)
    {act : GameRoomManager F → PlayerBinding → GameRoom F → α → Handled F}
    (hact : ∀ (m : GameRoomManager F) b room payload, m.Consistent → m.findRoom b.roomId = some room →
      Talks (act m b room payload)) : Talks (m.handleAs packet peer decode act) := by
  have hresolved := h.resolve peer packet
  unfold handleAs
  rcases hr : m.resolveAndRefreshPeer peer packet with ⟨_ | b, m'⟩ <;> rw [hr] at hresolved
  · exact talks_nothing m'
  · cases decode packet with
    | none => exact talks_nothing m'
    | some payload =>
        dsimp only at hresolved ⊢
        cases hroom : m'.findRoom b.roomId with
        | none => exact talks_nothing m'
        | some room => exact hact m' b room payload hresolved hroom

theorem Consistent.talks_handleChat (h : m.Consistent) (env : Environment) (packet : GamePacket)
    (peer : SockAddrIn) : Talks (m.handleChat env packet peer) := by
  refine h.talks_handleAs packet peer _ fun m b room chat h hroom => ?_
  exact ⟨_, List.forall_mem_singleton.mpr rfl, h.hear_broadcast hroom env.ord ⟨.kS2CChat, 0, _, _⟩⟩

end

/-! ## The count of the ticks -/

/-- The rooms of `m` are still there, and no tick has passed. -/
structure SameTick (m m' : GameRoomManager F) : Prop where
  rooms : ∀ r room, m.findRoom r = some room →
    ∃ room', m'.findRoom r = some room' ∧ room'.serverTick = room.serverTick
  counter : m'.matchBroadcastCounter = m.matchBroadcastCounter
  interval : m'.tickIntervalMs = m.tickIntervalMs

theorem SameTick.refl (m : GameRoomManager F) : SameTick m m :=
  ⟨fun _ room hroom => ⟨room, hroom, rfl⟩, rfl, rfl⟩

theorem SameTick.trans {m m' m'' : GameRoomManager F} (h : SameTick m m') (h' : SameTick m' m'') :
    SameTick m m'' where
  rooms r room hroom := by
    obtain ⟨room', hroom', htick'⟩ := h.rooms r room hroom
    obtain ⟨room'', hroom'', htick''⟩ := h'.rooms r room' hroom'
    exact ⟨room'', hroom'', htick''.trans htick'⟩
  counter := h'.counter.trans h.counter
  interval := h'.interval.trans h.interval

theorem sameTick_modifyRoom (m : GameRoomManager F) {r : UInt32} {f : GameRoom F → GameRoom F}
    (hf : ∀ room, m.findRoom r = some room → (f room).serverTick = room.serverTick) :
    SameTick m (m.modifyRoom r f) where
  rooms r' room hroom := by
    rw [findRoom_modifyRoom]
    split
    · rename_i hr
      subst hr
      exact ⟨f room, by rw [hroom, Option.map_some], hf room hroom⟩
    · exact ⟨room, hroom, rfl⟩
  counter := rfl
  interval := rfl

theorem sameTick_resolve (m : GameRoomManager F) (peer : SockAddrIn) (packet : GamePacket) :
    SameTick m (m.resolveAndRefreshPeer peer packet).2 := by
  unfold resolveAndRefreshPeer
  cases m.findBinding peer with
  | some b => exact m.sameTick_modifyRoom fun _ _ => rfl
  | none =>
      cases m.namedPlayer packet with
      | none => exact .refl m
      | some player =>
          have hset : SameTick m (m.setPeer ⟨packet.header.roomId, packet.header.playerId⟩ peer) :=
            m.sameTick_modifyRoom fun _ _ => rfl
          exact ⟨hset.rooms, rfl, rfl⟩

theorem sameTick_leaveByPeer (m : GameRoomManager F) (peer : SockAddrIn) :
    SameTick m (m.leaveByPeer peer) := by
  unfold leaveByPeer
  cases m.findBinding peer with
  | none => exact .refl m
  | some b =>
      have hleft : SameTick m (m.modifyRoom b.roomId fun room => room.removePlayer b.playerId) :=
        m.sameTick_modifyRoom fun _ _ => rfl
      exact ⟨hleft.rooms, rfl, rfl⟩

/-- The loop over the rooms comes by the only room once. -/
theorem OneRoom.iterate_rooms {m : GameRoomManager F} (h : m.OneRoom) (ord : IterOrder UInt32) :
    UnorderedMap.iterate ord m.rooms
      = ((m.findRoom kSingleRoomId).map fun room => (kSingleRoomId, room)).toList := by
  cases hroom : m.findRoom kSingleRoomId with
  | none =>
      refine List.eq_nil_iff_forall_not_mem.mpr fun ⟨r, room⟩ hentry => ?_
      have hfind : m.findRoom r = some room := UnorderedMap.mem_pairs_iff.mp
        ((UnorderedMap.iterate_perm ord m.rooms).mem_iff.mp hentry)
      rw [h r room hfind, hroom] at hfind
      cases hfind
  | some room =>
      have hone : (UnorderedMap.iterate ord m.rooms).filter (fun _ => true) = [(kSingleRoomId, room)] :=
        UnorderedMap.filter_iterate hroom fun r old hold => iff_of_true rfl (h r old hold)
      rw [List.filter_eq_self.mpr fun _ _ => rfl] at hone
      exact hone

/-! ## When the match state is due -/

/-- The match state goes out with the tick of this number. -/
def dueAt (tickIntervalMs counter : UInt32) : Bool :=
  tickIntervalMs > 0 && counter % max 1 (1000 / tickIntervalMs) == 0

/-- A manager that has been ticked `n` times. -/
structure Ticked (tickIntervalMs : UInt32) (n : Nat) (m : GameRoomManager F) : Prop where
  consistent : m.Consistent
  interval : m.tickIntervalMs = tickIntervalMs
  counter : m.matchBroadcastCounter = UInt32.ofNat n

theorem Ticked.sameTick {tickIntervalMs : UInt32} {n : Nat} {m m' : GameRoomManager F}
    (h : Ticked tickIntervalMs n m) (hsame : SameTick m m') (hconsistent : m'.Consistent) :
    Ticked tickIntervalMs n m' :=
  ⟨hconsistent, hsame.interval.trans h.interval, hsame.counter.trans h.counter⟩

/-- The call is a tick. -/
def Call.isTick : Call → Bool
  | .tickAll _ => true
  | _ => false

/-- The input is a tick. -/
def Input.isTick : Input → Bool
  | .tick _ => true
  | _ => false

variable [FloatArith F]

theorem sameTick_ensureRoom (m : GameRoomManager F) : SameTick m m.ensureRoom where
  rooms r room hroom := by
    obtain hsame | ⟨-, hnone, -⟩ := m.findRoom_ensureRoom_cases r
    · exact ⟨room, hsame.trans hroom, rfl⟩
    · rw [hnone] at hroom
      cases hroom
  counter := by
    unfold ensureRoom
    split <;> rfl
  interval := by
    unfold ensureRoom
    split <;> rfl

theorem sameTick_join (m : GameRoomManager F) (peer : SockAddrIn) (desired : UInt32) :
    SameTick m (m.join peer desired).2 := by
  unfold join
  cases m.peerIndex.lookup (peerKey peer) with
  | some b => exact .refl m
  | none =>
      refine m.sameTick_ensureRoom.trans ?_
      dsimp only
      cases hroom : m.ensureRoom.findRoom kSingleRoomId with
      | none => exact .refl _
      | some room =>
          dsimp only [takeIn]
          split
          · exact ⟨(SameTick.refl m.ensureRoom).rooms, rfl, rfl⟩
          · have hadd : (room.addPlayer peer m.ensureRoom.nextPlayerId).2.serverTick
                = room.serverTick := by
              unfold GameRoom.addPlayer
              split <;> rfl
            have htaken : SameTick m.ensureRoom (m.ensureRoom.modifyRoom kSingleRoomId fun _ =>
                (room.addPlayer peer m.ensureRoom.nextPlayerId).2) := by
              refine m.ensureRoom.sameTick_modifyRoom fun old hold => ?_
              obtain rfl := Option.some.inj (hold.symm.trans hroom)
              exact hadd
            exact ⟨htaken.rooms, rfl, rfl⟩

variable {m : GameRoomManager F}

theorem Consistent.talks_handleRespawn (h : m.Consistent) (env : Environment) (packet : GamePacket)
    (peer : SockAddrIn) : Talks (m.handleRespawn env packet peer) := by
  refine h.talks_handleAs packet peer _ fun m b room _ h hroom => ?_
  have hid : (room.applyRespawn b.playerId).roomId = room.roomId := by
    unfold GameRoom.applyRespawn
    cases room.findPlayer b.playerId with
    | none => rfl
    | some player =>
        dsimp only
        split
        · rfl
        split
        · rfl
        · rfl
  exact ⟨_, List.forall_mem_singleton.mpr rfl,
    h.hear_sendEvent hroom hid (fun p => room.identity_applyRespawn b.playerId p) env.ord _⟩

variable [FloatBits F]

/-! ## Packets -/

theorem Consistent.talks_handleFire (h : m.Consistent) (env : Environment) (packet : GamePacket)
    (peer : SockAddrIn) : Talks (m.handleFire env packet peer) := by
  refine h.talks_handleAs packet peer _ fun m b room fire h hroom => ?_
  obtain ⟨e, hm⟩ := h.refines
  have hid : (room.applyFire env.ord b.playerId fire).room.roomId = room.roomId :=
    roomId_deed ((GameRoom.shot_applyFire (hm.filed hroom) env.ord b.playerId fire).deed rfl)
  have hear := h.hear_sendEvent hroom hid
    (fun p => room.identity_applyFire env.ord b.playerId p fire) env.ord
  have hplain : ∀ ev : GameEventPayload, Announcement.ofTick ⟨.kS2CEvent, 0,
      (room.applyFire env.ord b.playerId fire).room.serverTick, GameCodec.encodeEvent ev⟩ = false :=
    fun _ => rfl
  dsimp only
  split
  · split
    · refine ⟨_, ?_, (hear _).append (hear _)⟩
      exact List.forall_mem_cons.mpr ⟨hplain _, List.forall_mem_singleton.mpr (hplain _)⟩
    · rw [List.append_nil]
      exact ⟨_, List.forall_mem_singleton.mpr (hplain _), hear _⟩
  · exact talks_nothing _

/-- The sender asks for an answer to itself. -/
def Asks (packet : GamePacket) : Prop :=
  packet.header.msgType = .kC2SJoin ∨ packet.header.msgType = .kC2SPing

instance (packet : GamePacket) : Decidable (Asks packet) :=
  inferInstanceAs (Decidable (_ ∨ _))

/-- Everything else is announced to everybody. -/
theorem Consistent.talks_handlePacket (h : m.Consistent) (env : Environment) {packet : GamePacket}
    (peer : SockAddrIn) (hasks : ¬Asks packet) : Talks (m.handlePacket env packet peer) := by
  obtain ⟨hjoin, hping⟩ := not_or.mp hasks
  unfold handlePacket
  dsimp only
  rw [if_neg hjoin]
  split
  · exact h.talks_handleAs packet peer _ fun m b _ input _ _ => talks_nothing _
  split
  · exact h.talks_handleFire env packet peer
  split
  · exact h.talks_handleChat env packet peer
  split
  · exact h.talks_handleAs packet peer _ fun m b _ w _ _ => talks_nothing _
  split
  · exact h.talks_handleRespawn env packet peer
  split
  · exact h.talks_handleAs packet peer _ fun m b _ profile _ _ => talks_nothing _
  exact talks_nothing m

/-- An answer goes to whoever has asked. -/
theorem mail_handlePacket_of_asks (m : GameRoomManager F) (env : Environment) {packet : GamePacket}
    {peer peer' : SockAddrIn} (hasks : Asks packet) (hne : peer' ≠ peer) :
    mail peer' (m.handlePacket env packet peer).1 = [] := by
  have hto : ∀ d ∈ (m.handlePacket env packet peer).1, d.peer = peer := by
    have hjoin : ∀ d ∈ (m.handleJoin packet peer).1, d.peer = peer := by
      unfold handleJoin
      split
      · exact fun d hd => absurd hd List.not_mem_nil
      · dsimp only
        split
        · exact List.forall_mem_singleton.mpr rfl
        · exact fun d hd => absurd hd List.not_mem_nil
    have hping : ∀ d ∈ (m.handlePing env packet peer).1, d.peer = peer := by
      unfold handlePing sendPong
      split
      · exact fun d hd => absurd hd List.not_mem_nil
      · exact List.forall_mem_singleton.mpr rfl
    unfold handlePacket
    rcases hasks with htype | htype
    · rw [htype]
      exact hjoin
    · rw [htype]
      exact hping
  rw [mail, List.filter_eq_nil_iff.mpr, List.map_nil]
  intro d hd hpeer
  exact hne ((of_decide_eq_true hpeer).symm.trans (hto d hd))

/-- A packet is no tick. -/
theorem Refines.sameTick_handlePacket {m : GameRoomManager F} {e : Bytes ≃. PlayerBinding}
    (hm : Refines m e) (env : Environment) (packet : GamePacket) (peer : SockAddrIn) :
    SameTick m (m.handlePacket env packet peer).2 := by
  have hout := handlePacket_outcome hm env packet peer
  generalize m.handlePacket env packet peer = out at hout ⊢
  cases hout with
  | join desired htype hsent => exact m.sameTick_join peer desired
  | drop hm' hsent hsender =>
      rcases hm' with heq | heq
      · exact heq ▸ .refl m
      · exact heq ▸ m.sameTick_resolve peer packet
  | act hsender hroom hdeed =>
      refine (m.sameTick_resolve peer packet).trans (sameTick_modifyRoom _ fun old hold => ?_)
      obtain rfl := Option.some.inj (hold.symm.trans hroom)
      cases hdeed <;> rfl

/-! ## Ticks -/

/-- What a tick announces: the snapshot, and the match state if it is due. -/
def tickFeed (due : Bool) (ticked : GameSnapshotPayload F × GameRoom F) : List Announcement :=
  { type := .kS2CSnapshot, seq := ticked.1.serverTick, tick := ticked.1.serverTick
    payload := GameCodec.encodeSnapshot ticked.1 }
    :: if due then
        [{ type := .kS2CMatchState, tick := ticked.2.serverTick
           payload := GameCodec.encodeMatchState ticked.2.matchState }]
      else []

theorem Consistent.tickAll (h : m.Consistent) (ord : IterOrder UInt32) : (m.tickAll ord).2.Consistent where
  refines := by
    obtain ⟨e, hm⟩ := h.refines
    exact ⟨e, (m.quiet_tickAll ord).refines hm⟩
  numbered := h.numbered.tickAll ord
  oneRoom := h.oneRoom.tickAll ord

/-- **A tick** is announced to every player, if there is a room. -/
theorem Consistent.hear_tickAll (h : m.Consistent) (ord : IterOrder UInt32) :
    Hear (m.tickAll ord) (((m.findRoom kSingleRoomId).map fun room =>
      tickFeed (dueAt m.tickIntervalMs (m.matchBroadcastCounter + 1)) (room.tick ord)).getD []) := by
  have hsent : (m.tickAll ord).1
      = ((m.findRoom kSingleRoomId).map fun room =>
          tickRoom ord (dueAt m.tickIntervalMs (m.matchBroadcastCounter + 1)) room).getD [] := by
    simp only [GameRoomManager.tickAll, h.oneRoom.iterate_rooms ord]
    cases m.findRoom kSingleRoomId with
    | none => rfl
    | some room => exact List.flatMap_singleton _ _
  have hroom : (m.tickAll ord).2.findRoom kSingleRoomId
      = (m.findRoom kSingleRoomId).map fun room => (room.tick ord).2 := m.findRoom_tickAll ord _
  have hafter := h.tickAll ord
  rw [show m.tickAll ord = ((m.tickAll ord).1, (m.tickAll ord).2) from rfl, hsent]
  generalize (m.tickAll ord).2 = m' at hroom hafter ⊢
  cases hold : m.findRoom kSingleRoomId with
  | none => exact hear_nil m'
  | some room =>
      rw [hold] at hroom
      have hear : ∀ a : Announcement,
          Hear (broadcast ord (room.tick ord).2 a.type a.seq a.tick a.payload, m') [a] :=
        hafter.hear_broadcast hroom ord
      refine (hear ⟨.kS2CSnapshot, _, _, _⟩).append ?_
      cases dueAt m.tickIntervalMs (m.matchBroadcastCounter + 1) with
      | true => exact hear ⟨.kS2CMatchState, 0, _, _⟩
      | false => exact hear_nil m'

/-! ## Reachable managers -/

theorem Consistent.handlePacket (h : m.Consistent) (env : Environment)
    (packet : GamePacket) (peer : SockAddrIn) : (m.handlePacket env packet peer).2.Consistent := by
  obtain ⟨e, hm⟩ := h.refines
  obtain ⟨e', -, hm'⟩ := handlePacket_follows hm env packet peer
  exact ⟨⟨e', hm'⟩, h.numbered.handlePacket hm env packet peer, h.oneRoom.handlePacket hm env packet peer⟩

theorem Consistent.next (h : m.Consistent) (i : Input) : (m.next i).Consistent := by
  cases i with
  | datagram env packet peer => exact h.handlePacket env packet peer
  | tick ord => exact h.tickAll ord

theorem ticked_reached (tickIntervalMs : UInt32) (calls : List Call) :
    Ticked tickIntervalMs (calls.countP Call.isTick) (reached tickIntervalMs calls : GameRoomManager F) := by
  induction calls using List.reverseRecOn with
  | nil =>
      exact ⟨⟨⟨⊥, refines_new tickIntervalMs⟩, numbered_new tickIntervalMs, oneRoom_new tickIntervalMs⟩,
        rfl, rfl⟩
  | append_singleton calls call ih =>
      have hnext : (reached tickIntervalMs (calls ++ [call]) : GameRoomManager F)
          = (reached tickIntervalMs calls).after call := by
        rw [reached, run_append]
        rfl
      rw [hnext, List.countP_append, List.countP_singleton]
      generalize (reached tickIntervalMs calls : GameRoomManager F) = m at ih ⊢
      obtain ⟨e, hm⟩ := ih.consistent.refines
      cases call with
      | join peer desired =>
          obtain ⟨e', -, hm'⟩ := join_follows hm peer desired
          exact ih.sameTick (m.sameTick_join peer desired) ⟨⟨e', hm'⟩,
            ih.consistent.numbered.join peer desired, (m.joined_join peer desired).oneRoom ih.consistent.oneRoom⟩
      | leaveByPeer peer =>
          obtain ⟨e', -, hm'⟩ := leaveByPeer_follows hm peer
          exact ih.sameTick (m.sameTick_leaveByPeer peer) ⟨⟨e', hm'⟩,
            ih.consistent.numbered.leaveByPeer peer, ih.consistent.oneRoom.leaveByPeer peer⟩
      | handlePacket env packet peer =>
          exact ih.sameTick (hm.sameTick_handlePacket env packet peer)
            (ih.consistent.handlePacket env packet peer)
      | tickAll ord =>
          refine ⟨ih.consistent.tickAll ord, ih.interval, ?_⟩
          show m.matchBroadcastCounter + 1 = _
          rw [ih.counter, UInt32.ofNat_add]
          rfl

/-! ## One feed -/

/-- What the server says in a step, whoever is there. -/
def Says (m : GameRoomManager F) (i : Input) (feed : List Announcement) : Prop :=
  match i with
  | .tick ord => feed = ((m.findRoom kSingleRoomId).map fun room =>
      tickFeed (dueAt m.tickIntervalMs (m.matchBroadcastCounter + 1)) (room.tick ord)).getD []
  | .datagram _ _ _ => ∀ a ∈ feed, a.ofTick = false

/-- The address asks for an answer to itself. -/
def Input.asks (peer : SockAddrIn) : Input → Bool
  | .datagram _ packet sender => decide (peer = sender ∧ Asks packet)
  | .tick _ => false

/-- What an address is sent, beside the answers to its own requests. -/
def heard (peer : SockAddrIn) (m : GameRoomManager F) (i : Input) : List Bytes :=
  if i.asks peer then [] else mail peer (m.serve i).1

/-- **One step.** -/
theorem Consistent.says (h : m.Consistent) (i : Input) :
    ∃ feed, Says m i feed ∧ ∀ peer,
      heard peer m i = feed.filterMap fun a => ((m.next i).findBinding peer).map a.packetTo := by
  cases i with
  | tick ord => exact ⟨_, rfl, h.hear_tickAll ord⟩
  | datagram env packet sender =>
      by_cases hasks : Asks packet
      · refine ⟨[], fun _ ha => absurd ha List.not_mem_nil, fun peer => ?_⟩
        by_cases hpeer : peer = sender
        · rw [heard, Input.asks, decide_eq_true ⟨hpeer, hasks⟩, if_pos rfl]
          rfl
        · rw [heard, Input.asks, decide_eq_false fun hown => hpeer hown.1, if_neg Bool.false_ne_true]
          exact m.mail_handlePacket_of_asks env hasks hpeer
      · obtain ⟨feed, hplain, hhear⟩ := h.talks_handlePacket env sender hasks
        refine ⟨feed, hplain, fun peer => ?_⟩
        rw [heard, Input.asks, decide_eq_false fun hown => hasks hown.2, if_neg Bool.false_ne_true]
        exact hhear peer

/-! ## Stamps -/

/-- The stamps of what `n` ticks announce, after the tick `tick` of the room and `counter` ticks of the
server. -/
def stamps (tickIntervalMs tick counter : UInt32) : Nat → List (GameMsgType × UInt32 × UInt32)
  | 0 => []
  | n + 1 =>
      (.kS2CSnapshot, tick + 1, tick + 1)
        :: (if dueAt tickIntervalMs (counter + 1) then [(.kS2CMatchState, 0, tick + 1)] else [])
        ++ stamps tickIntervalMs (tick + 1) (counter + 1) n

omit [FloatBits F] in
theorem serverTick_tick (ord : IterOrder UInt32) (room : GameRoom F) :
    (room.tick ord).2.serverTick = room.serverTick + 1 := by
  simp only [GameRoom.tick, GameRoom.simulateMovement, GameRoom.simulateRespawn,
    GameRoom.advanceClock_serverTick]

theorem stamps_tickFeed (due : Bool) (ord : IterOrder UInt32) (room : GameRoom F) :
    ((tickFeed due (room.tick ord)).filter Announcement.ofTick).map Announcement.stamp
      = (.kS2CSnapshot, room.serverTick + 1, room.serverTick + 1)
        :: if due then [(.kS2CMatchState, 0, room.serverTick + 1)] else [] := by
  have hsnap : (room.tick ord).1.serverTick = room.serverTick + 1 := by
    rw [GameRoom.tick_fst]
    exact serverTick_tick ord room
  unfold tickFeed
  rw [hsnap, serverTick_tick]
  cases due <;> rfl

/-- The ticks of a feed are numbered, from the tick that the room has had. -/
theorem stamps_said {during : List Input} {feed : List Announcement} (h : Said next Says m during feed)
    (hm : m.Consistent) {room : GameRoom F} (hroom : m.findRoom kSingleRoomId = some room) :
    (feed.filter Announcement.ofTick).map Announcement.stamp
      = stamps m.tickIntervalMs room.serverTick m.matchBroadcastCounter
          (during.countP Input.isTick) := by
  induction h generalizing room with
  | nil m => rfl
  | @cons m i is feed rest hsays hrest ih =>
      rw [List.filter_append, List.map_append, List.countP_cons]
      cases i with
      | tick ord =>
          have hfeed : feed = tickFeed (dueAt m.tickIntervalMs (m.matchBroadcastCounter + 1))
              (room.tick ord) := by
            have hsays : feed = _ := hsays
            rw [hroom] at hsays
            exact hsays
          have hnext : (m.next (.tick ord)).findRoom kSingleRoomId = some (room.tick ord).2 := by
            have hroom' := m.findRoom_tickAll ord kSingleRoomId
            rw [hroom] at hroom'
            exact hroom'
          rw [ih (hm.tickAll ord) hnext, hfeed, stamps_tickFeed, serverTick_tick]
          rfl
      | datagram env packet sender =>
          obtain ⟨e, hrefines⟩ := hm.refines
          have hsame := hrefines.sameTick_handlePacket env packet sender
          obtain ⟨room', hroom', htick⟩ := hsame.rooms _ room hroom
          have hquiet : feed.filter Announcement.ofTick = [] :=
            List.filter_eq_nil_iff.mpr fun a ha => Bool.not_eq_true _ ▸ hsays a ha
          rw [ih (hm.handlePacket env packet sender) hroom', hquiet, htick,
            show (m.next (.datagram env packet sender)).tickIntervalMs = _ from hsame.interval,
            show (m.next (.datagram env packet sender)).matchBroadcastCounter = _ from hsame.counter]
          rfl

/-- **All players hear one feed.** Whatever has happened to the server and happens from now on, there is
one sequence of announcements such that an address that stays bound hears exactly these, each once and
under its own ids, and an address that stays unbound hears nothing.  In it every tick has the snapshot of
the room that it leaves, numbered without a gap, and its match state whenever the count of all ticks says
so. -/
theorem players_hear_one_feed (tickIntervalMs : UInt32) (before : List Call) (during : List Input) :
    let m : GameRoomManager F := reached tickIntervalMs before
    ∃ feed : List Announcement, Said next Says m during feed
      ∧ (∀ peer binding, (∀ part, part <+: during → (run next m part).findBinding peer = binding) →
        (outputs next (heard peer) m during).flatten
          = feed.filterMap fun a => binding.map a.packetTo)
      ∧ ∀ room, m.findRoom kSingleRoomId = some room →
        (feed.filter Announcement.ofTick).map Announcement.stamp
          = stamps tickIntervalMs room.serverTick (UInt32.ofNat (before.countP Call.isTick))
              (during.countP Input.isTick) := by
  intro m
  have hreached := ticked_reached (F := F) tickIntervalMs before
  have hstep : ∀ (m : GameRoomManager F) i, m.Consistent → ∃ feed, Says m i feed
      ∧ ∀ l : SockAddrIn × Option PlayerBinding, (m.next i).findBinding l.1 = l.2 →
        heard l.1 m i = feed.filterMap fun a => l.2.map a.packetTo := by
    intro m i h
    obtain ⟨feed, hsays, hhear⟩ := h.says i
    refine ⟨feed, hsays, ?_⟩
    rintro ⟨peer, binding⟩ hthere
    rw [hhear peer, hthere]
  obtain ⟨feed, hsaid, hhear⟩ := @one_feed _ _ _ _ (SockAddrIn × Option PlayerBinding) next
    Consistent (fun l m => m.findBinding l.1 = l.2) (fun l => heard l.1)
    (fun l a => l.2.map a.packetTo) Says
    (fun m i h => h.next i) hstep m hreached.consistent during
  refine ⟨feed, hsaid, fun peer binding hbound => hhear (peer, binding) hbound, fun room hroom => ?_⟩
  rw [stamps_said hsaid hreached.consistent hroom, hreached.interval, hreached.counter]

end GameRoomManager

end LightNet.Game
