/-
# LightNet.Game.Operations — every run of the manager is a run of its room.

The laws of a room are about `run perform`, whatever operations are performed.  The manager makes one
operation of a call, or none: a datagram acts on the player that it speaks for, a join adds a player under
the next id, a tick is a tick.  The addresses of the players are the manager's business and not the room's,
so the two are compared with all addresses blotted out.  A shot is performed with the outcome that it had,
since the order in which the table is searched is not the room's to know.
-/
import LightNet.Game.Course

namespace LightNet.Game

open LightNet.Foundation LightNet.Core LightNet.Net
open FloatArith (lt le)
open GameRoomManager (tickSeconds kSingleRoomId)

variable {F : Type}

/-! ## Rooms without addresses -/

/-- The address of nobody. -/
def nowhere : SockAddrIn := ⟨0, 0, 0, 0, 0⟩

/-- A player without its address. -/
def GamePlayer.anonymous (player : GamePlayer F) : GamePlayer F := { player with peer := nowhere }

namespace GameRoom

/-- A room without the addresses of its players. -/
def anonymous (room : GameRoom F) : GameRoom F :=
  { room with players := UnorderedMap.mapWithKey (fun _ player => player.anonymous) room.players }

variable {room : GameRoom F}

@[simp] theorem findPlayer_anonymous (room : GameRoom F) (p : UInt32) :
    room.anonymous.findPlayer p = (room.findPlayer p).map GamePlayer.anonymous :=
  UnorderedMap.lookup_mapWithKey _ _ p

/-- A change of one player that does not look at addresses. -/
theorem anonymous_modifyPlayer {f : GamePlayer F → GamePlayer F}
    (hf : ∀ player, (f player).anonymous = f player.anonymous) (room : GameRoom F) (p : UInt32) :
    (room.modifyPlayer p f).anonymous = room.anonymous.modifyPlayer p f := by
  simp only [anonymous, modifyPlayer, UnorderedMap.modify, UnorderedMap.mapWithKey_mapWithKey]
  congr 2
  funext q player
  split
  · exact hf player
  · rfl

/-- A change of every player that does not look at addresses. -/
theorem anonymous_mapWithKey {f : GamePlayer F → GamePlayer F}
    (hf : ∀ player, (f player).anonymous = f player.anonymous) (room : GameRoom F) :
    ({ room with players := UnorderedMap.mapWithKey (fun _ => f) room.players } : GameRoom F).anonymous
      = { room.anonymous with
          players := UnorderedMap.mapWithKey (fun _ => f) room.anonymous.players } := by
  simp only [anonymous, UnorderedMap.mapWithKey_mapWithKey, hf]

theorem anonymous_addPlayer [FloatArith F] (room : GameRoom F) (peer : SockAddrIn) (p : UInt32) :
    (room.addPlayer peer p).2.anonymous = (room.anonymous.addPlayer nowhere p).2 := by
  have hmem : p ∈ room.anonymous.players ↔ p ∈ room.players := by
    rw [AList.mem_keys, AList.mem_keys, anonymous, UnorderedMap.keys_mapWithKey]
  have hcount : room.anonymous.playerCount = room.playerCount := UnorderedMap.size_mapWithKey _ _
  by_cases hp : p = 0 ∨ p ∈ room.players
  · have hp' : p = 0 ∨ p ∈ room.anonymous.players := hp.imp_right hmem.mpr
    rw [addPlayer, if_pos hp, addPlayer, if_pos hp']
  · have hp' : ¬(p = 0 ∨ p ∈ room.anonymous.players) := fun h => hp (h.imp_right hmem.mp)
    rw [addPlayer, if_neg hp, addPlayer, if_neg hp', hcount]
    rw [not_or] at hp
    simp only [anonymous, UnorderedMap.mapWithKey_insert hp.2]
    rfl

theorem anonymous_removePlayer (room : GameRoom F) (p : UInt32) :
    (room.removePlayer p).anonymous = room.anonymous.removePlayer p := by
  simp only [anonymous, removePlayer, UnorderedMap.mapWithKey_erase]

theorem anonymous_applyWeapon (room : GameRoom F) (p : UInt32) (weaponId : UInt8) :
    (room.applyWeapon p weaponId).anonymous = room.anonymous.applyWeapon p weaponId := by
  have hmodify := room.anonymous_modifyPlayer (f := fun player => { player with weaponId })
    (fun _ => rfl) p
  cases hplayer : room.findPlayer p with
  | none => simp only [applyWeapon, findPlayer_anonymous, hplayer, Option.map_none]
  | some player =>
      have halive : player.anonymous.alive = player.alive := rfl
      simp only [applyWeapon, findPlayer_anonymous, hplayer, Option.map_some, halive,
        apply_ite GameRoom.anonymous, hmodify]

theorem anonymous_applyProfile (room : GameRoom F) (p : UInt32) (name : Bytes) :
    (room.applyProfile p name).anonymous = room.anonymous.applyProfile p name := by
  apply anonymous_modifyPlayer
  intro player
  rfl

variable [FloatArith F]

/-! ## The operations do not look at addresses -/

theorem anonymous_onInput (player : GamePlayer F) (input : GameInputPayload F) :
    (player.onInput input).anonymous = player.anonymous.onInput input := by
  have htowards : ∀ (player : GamePlayer F) (maxStep : F),
      (player.moveTowards input maxStep).anonymous = player.anonymous.moveTowards input maxStep := by
    intro player maxStep
    simp only [GamePlayer.moveTowards, apply_ite GamePlayer.anonymous]
    rfl
  simp only [GamePlayer.onInput, apply_ite GamePlayer.anonymous, htowards]
  rfl

theorem anonymous_applyInput (room : GameRoom F) (p : UInt32) (input : GameInputPayload F) :
    (room.applyInput p input).anonymous = room.anonymous.applyInput p input := by
  have hmodify := room.anonymous_modifyPlayer (f := fun player => player.onInput input)
    (fun player => anonymous_onInput player input) p
  cases hplayer : room.findPlayer p with
  | none => simp only [applyInput, findPlayer_anonymous, hplayer, Option.map_none]
  | some player =>
      have halive : player.anonymous.alive = player.alive := rfl
      have hseq : player.anonymous.lastInputSeq = player.lastInputSeq := rfl
      have hover : room.anonymous.matchOver = room.matchOver := rfl
      simp only [applyInput, findPlayer_anonymous, hplayer, Option.map_some, halive, hseq, hover,
        apply_ite GameRoom.anonymous, hmodify]

theorem anonymous_hit (room : GameRoom F) (p t : UInt32) (target : GamePlayer F) :
    (room.hit p t target).room.anonymous = (room.anonymous.hit p t target.anonymous).room := by
  have hhp : target.anonymous.hp = target.hp := rfl
  simp only [hit, hhp]
  split
  · have hkilled : (room.modifyPlayer t GamePlayer.killed).anonymous
        = room.anonymous.modifyPlayer t GamePlayer.killed := by
      apply anonymous_modifyPlayer
      intro player
      rfl
    have hscored := anonymous_modifyPlayer (f := GamePlayer.scored) (fun _ => rfl)
      (room.modifyPlayer t GamePlayer.killed) p
    rw [hkilled] at hscored
    exact hscored
  · apply anonymous_modifyPlayer
    intro player
    rfl

theorem anonymous_applyFireAt (room : GameRoom F) (p t : UInt32) :
    (room.applyFireAt p t).anonymous = room.anonymous.applyFireAt p t := by
  simp only [applyFireAt, findPlayer_anonymous]
  cases room.findPlayer p with
  | none => rfl
  | some shooter =>
      cases room.findPlayer t with
      | none => rfl
      | some target =>
          simp only [Option.map_some, apply_ite GameRoom.anonymous, anonymous_hit]
          rfl

theorem anonymous_applyRespawn (room : GameRoom F) (p : UInt32) :
    (room.applyRespawn p).anonymous = room.anonymous.applyRespawn p := by
  have hmodify := room.anonymous_modifyPlayer (f := fun player => player.respawn p) (fun _ => rfl) p
  cases hplayer : room.findPlayer p with
  | none => simp only [applyRespawn, findPlayer_anonymous, hplayer, Option.map_none]
  | some player =>
      have halive : player.anonymous.alive = player.alive := rfl
      have htimer : player.anonymous.respawnTimer = player.respawnTimer := rfl
      have hover : room.anonymous.matchOver = room.matchOver := rfl
      simp only [applyRespawn, findPlayer_anonymous, hplayer, Option.map_some, halive, htimer, hover,
        apply_ite GameRoom.anonymous, hmodify]

theorem anonymous_tick (ord ord' : IterOrder UInt32) (room : GameRoom F) :
    (room.tick ord).2.anonymous = (room.anonymous.tick ord').2 := by
  have hcool : ∀ (dt : F) (player : GamePlayer F),
      (player.coolDown dt).anonymous = player.anonymous.coolDown dt := by
    intro dt player
    simp only [GamePlayer.coolDown, apply_ite GamePlayer.anonymous]
    rfl
  have hmove : ∀ (b : Bool) (dt : F) (player : GamePlayer F),
      (player.move b dt).anonymous = player.anonymous.move b dt := by
    intro b dt player
    simp only [GamePlayer.move, apply_ite GamePlayer.anonymous]
    rfl
  have hclock : ∀ (room : GameRoom F) (dt : F),
      (room.advanceClock dt).anonymous = room.anonymous.advanceClock dt := by
    intro room dt
    have hover : room.anonymous.matchOver = room.matchOver := rfl
    simp only [advanceClock, hover, apply_ite GameRoom.anonymous]
    rfl
  have hrespawn : ∀ (room : GameRoom F) (dt : F),
      (room.simulateRespawn dt).anonymous = room.anonymous.simulateRespawn dt :=
    fun room dt => anonymous_mapWithKey (hcool dt) room
  have hmovement : ∀ (room : GameRoom F) (dt : F),
      (room.simulateMovement dt).anonymous = room.anonymous.simulateMovement dt :=
    fun room dt => anonymous_mapWithKey (hmove room.matchOver dt) room
  simp only [tick, hmovement, hrespawn, hclock]
  rfl

/-! ## A shot, with the outcome that it had -/

/-- A shot is the one at the player that it has hit; where it hits nobody, nothing happens. -/
theorem applyFire_room (hfiled : room.Filed) (ord : IterOrder UInt32) (p : UInt32)
    (fire : GameFirePayload F) :
    (room.applyFire ord p fire).room
      = if (room.applyFire ord p fire).targetId ≠ 0 then
          room.applyFireAt p (room.applyFire ord p fire).targetId
        else room := by
  unfold applyFire
  split
  · rfl
  rename_i hmatch
  cases hshooter : room.findPlayer p with
  | none => rfl
  | some shooter =>
      dsimp only
      split
      · rfl
      rename_i haim
      split
      · rfl
      cases hfound : room.findHitTarget ord shooter _ with
      | none => rfl
      | some t =>
          obtain ⟨target, htarget, hother, hlive⟩ := findHitTarget_eq_some hfound
          obtain ⟨hkey, hnz⟩ := hfiled t target htarget
          have hne : t ≠ p := by
            rw [hkey, (hfiled p shooter hshooter).1] at hother
            exact hother
          have hid : (room.hit p t target).targetId = t := by
            unfold hit
            split <;> exact hkey
          have hguard : room.matchOver = false ∧ shooter.alive = true ∧ target.alive = true ∧ t ≠ p :=
            ⟨Bool.not_eq_true _ ▸ hmatch, by simpa using haim, hlive, hne⟩
          simp only [htarget, hid, if_pos hnz, applyFireAt, hshooter, if_pos hguard]

/-- The operation neither brings an address along nor searches the table. -/
def Op.Plain : Op F → Prop
  | .addPlayer _ _ | .applyFire _ _ _ => False
  | _ => True

/-- Such operations do not care for addresses. -/
theorem anonymous_perform (room : GameRoom F) {op : Op F} (hop : op.Plain) :
    (room.perform op).anonymous = room.anonymous.perform op := by
  cases op with
  | addPlayer peer p => exact hop.elim
  | applyFire ord p fire => exact hop.elim
  | removePlayer p => exact room.anonymous_removePlayer p
  | applyInput p input => exact room.anonymous_applyInput p input
  | applyFireAt p t => exact room.anonymous_applyFireAt p t
  | applyWeapon p weaponId => exact room.anonymous_applyWeapon p weaponId
  | applyProfile p name => exact room.anonymous_applyProfile p name
  | applyRespawn p => exact room.anonymous_applyRespawn p
  | tick ord => exact room.anonymous_tick ord ord

variable [FloatBits F]

/-- What a packet makes player `p` do in its room. -/
def operation (room : GameRoom F) (env : Environment) (packet : GamePacket) (p : UInt32) :
    Option (Op F) :=
  let type := packet.header.msgType
  if type = .kC2SInput then (GameCodec.decodeInput packet).map (Op.applyInput p)
  else if type = .kC2SFire then
    (GameCodec.decodeFire packet).bind fun fire =>
      let target := (room.applyFire env.ord p fire).targetId
      if target ≠ 0 then some (.applyFireAt p target) else none
  else if type = .kC2SWeapon then
    (GameCodec.decodeWeapon packet).map fun w => .applyWeapon p w.weaponId
  else if type = .kC2SRespawn then some (.applyRespawn p)
  else if type = .kC2SProfile then
    (GameCodec.decodeProfile packet).map fun profile => .applyProfile p profile.name
  else none

end GameRoom

/-! ## The operation of a call -/

namespace GameRoomManager

open GameRoom (perform)

theorem modifyRoom_of_fixed {m : GameRoomManager F} {r : UInt32} {room : GameRoom F}
    (hroom : m.findRoom r = some room) : (m.modifyRoom r fun _ => room) = m := by
  have hrooms : UnorderedMap.modify r (fun _ => room) m.rooms = m.rooms :=
    UnorderedMap.modify_of_fixed hroom rfl
  rw [modifyRoom, hrooms]

variable [FloatArith F]

/-- A peer that is new is added under the next id. -/
def enrolls (m : GameRoomManager F) (peer : SockAddrIn) : Option (GameRoom.Op F) :=
  if (m.findBinding peer).isSome then none else some (.addPlayer nowhere m.nextPlayerId)

/-- The only room, or the one that there will be. -/
def onlyRoom (m : GameRoomManager F) : GameRoom F :=
  ((m.findRoom kSingleRoomId).map GameRoom.anonymous).getD (GameRoom.new kSingleRoomId m.tickIntervalMs)

theorem onlyRoom_of_findRoom {m : GameRoomManager F} {room : GameRoom F}
    (hroom : m.findRoom kSingleRoomId = some room) : m.onlyRoom = room.anonymous := by
  rw [onlyRoom, hroom]
  rfl

/-- A change of the only room. -/
theorem onlyRoom_modifyRoom {m : GameRoomManager F} {room : GameRoom F}
    (hroom : m.findRoom kSingleRoomId = some room) (room' : GameRoom F) :
    (m.modifyRoom kSingleRoomId fun _ => room').onlyRoom = room'.anonymous := by
  apply onlyRoom_of_findRoom
  rw [findRoom_modifyRoom, if_pos rfl, hroom, Option.map_some]

/-- Another address does not show. -/
theorem onlyRoom_setPeer (m : GameRoomManager F) (b : PlayerBinding) (peer : SockAddrIn) :
    (m.setPeer b peer).onlyRoom = m.onlyRoom := by
  rw [onlyRoom, onlyRoom, setPeer, findRoom_modifyRoom]
  split
  · rename_i hr
    rw [hr, Option.map_map]
    congr 2
    funext room
    simp only [Function.comp_apply, GameRoom.anonymous, GameRoom.modifyPlayer, UnorderedMap.modify,
      UnorderedMap.mapWithKey_mapWithKey]
    congr 2
    funext q player
    split <;> rfl
  · rfl

theorem onlyRoom_resolve (m : GameRoomManager F) (peer : SockAddrIn) (packet : GamePacket) :
    (m.resolveAndRefreshPeer peer packet).2.onlyRoom = m.onlyRoom := by
  unfold resolveAndRefreshPeer
  cases m.findBinding peer with
  | some b => exact m.onlyRoom_setPeer b peer
  | none =>
      cases m.namedPlayer packet with
      | none => rfl
      | some player => exact m.onlyRoom_setPeer _ peer

theorem onlyRoom_ensureRoom (m : GameRoomManager F) : m.ensureRoom.onlyRoom = m.onlyRoom := by
  rw [onlyRoom_of_findRoom m.findRoom_ensureRoom, onlyRoom]
  cases m.findRoom kSingleRoomId with
  | none => rfl
  | some room => rfl

/-! ## Joining -/

/-- The room after an operation, or without one. -/
def performs (room : GameRoom F) (op : Option (GameRoom.Op F)) : GameRoom F :=
  op.elim room room.perform

/-- A join. -/
theorem onlyRoom_join (m : GameRoomManager F) (peer : SockAddrIn) (desired : UInt32) :
    (m.join peer desired).2.onlyRoom = performs m.onlyRoom (m.enrolls peer) := by
  unfold join enrolls
  rw [findBinding]
  cases m.peerIndex.lookup (peerKey peer) with
  | some b => rfl
  | none =>
      have hroom := m.findRoom_ensureRoom
      have hthe := m.onlyRoom_ensureRoom
      rw [onlyRoom_of_findRoom hroom] at hthe
      generalize (m.findRoom kSingleRoomId).getD _ = room at hroom hthe
      simp only [hroom, Option.isSome_none, Bool.false_eq_true, if_false, performs, Option.elim_some,
        GameRoom.perform, ← hthe, ← GameRoom.anonymous_addPlayer room peer, takeIn,
        nextPlayerId_ensureRoom]
      split
      · -- the room refuses the player, and stays as it is
        rename_i hadded
        refine (onlyRoom_of_findRoom hroom).trans ?_
        unfold GameRoom.addPlayer at hadded ⊢
        split
        · rfl
        · rename_i hfree
          rw [if_neg hfree] at hadded
          exact absurd (.inl hadded) hfree
      · exact onlyRoom_modifyRoom hroom _

/-! ## Packets -/

/-- What the sender of a packet does in its room. -/
def bySender (m : GameRoomManager F) (peer : SockAddrIn) (packet : GamePacket)
    (does : GameRoom F → UInt32 → Option (GameRoom.Op F)) : Option (GameRoom.Op F) :=
  match m.resolveAndRefreshPeer peer packet with
  | (none, _) => none
  | (some b, m) => (m.findRoom b.roomId).bind fun room => does room b.playerId

section

variable {m : GameRoomManager F} {e : Bytes ≃. PlayerBinding} {packet : GamePacket} {peer : SockAddrIn}

/-- Nobody does anything. -/
theorem performs_nobody {does : GameRoom F → UInt32 → Option (GameRoom.Op F)}
    (hdoes : ∀ room p, does room p = none) : performs m.onlyRoom (m.bySender peer packet does) = m.onlyRoom := by
  unfold bySender
  split
  · rfl
  · rename_i b m' _
    cases m'.findRoom b.roomId with
    | none => rfl
    | some room =>
        rw [Option.bind_some, hdoes]
        rfl

/-- A message that makes its sender's room perform what `does` says. -/
theorem onlyRoom_handleAs (hm : Refines m e) (hone : m.OneRoom) {α : Type}
    {decode : GamePacket → Option α} {act : GameRoomManager F → PlayerBinding → GameRoom F → α → Handled F}
    {does : GameRoom F → UInt32 → Option (GameRoom.Op F)}
    (hnone : decode packet = none → ∀ room p, does room p = none)
    (hact : ∀ m' b room payload, room.Filed → m'.findRoom b.roomId = some room →
      decode packet = some payload → (act m' b room payload).2
        = (does room b.playerId).elim m' fun op => m'.modifyRoom b.roomId fun _ => room.perform op)
    (hplain : ∀ room p, ∀ op ∈ does room p, op.Plain) :
    (m.handleAs packet peer decode act).2.onlyRoom
      = performs m.onlyRoom (m.bySender peer packet does) := by
  have hthe := m.onlyRoom_resolve peer packet
  obtain ⟨e', -, hm'⟩ := resolveAndRefreshPeer_follows hm peer packet
  have hone' := hone.resolve peer packet
  unfold handleAs bySender
  generalize m.resolveAndRefreshPeer peer packet = res at hthe hm' hone'
  obtain ⟨_ | b, m'⟩ := res
  · exact hthe
  · dsimp only at hthe hm' hone' ⊢
    cases hdec : decode packet with
    | none =>
        dsimp only
        cases m'.findRoom b.roomId with
        | none => exact hthe
        | some room =>
            rw [Option.bind_some, hnone hdec]
            exact hthe
    | some payload =>
        dsimp only
        cases hroom : m'.findRoom b.roomId with
        | none => exact hthe
        | some room =>
            obtain hid : b.roomId = kSingleRoomId := hone' _ room hroom
            have hfiled := hm'.filed hroom
            rw [hid] at hroom
            dsimp only
            rw [hact m' b room payload hfiled (hid.symm ▸ hroom) hdec, Option.bind_some, ← hthe,
              onlyRoom_of_findRoom hroom]
            cases hdoes : does room b.playerId with
            | none => exact onlyRoom_of_findRoom hroom
            | some op =>
                rw [Option.elim_some, hid, onlyRoom_modifyRoom hroom]
                exact room.anonymous_perform (hplain room b.playerId op hdoes)

theorem onlyRoom_handleJoin (m : GameRoomManager F) (packet : GamePacket) (peer : SockAddrIn) :
    (m.handleJoin packet peer).2.onlyRoom
      = performs m.onlyRoom ((GameCodec.decodeJoin packet).bind fun _ => m.enrolls peer) := by
  unfold handleJoin
  cases GameCodec.decodeJoin packet with
  | none => rfl
  | some req =>
      have hjoin := m.onlyRoom_join peer req.desiredRoomId
      rw [Option.bind_some, ← hjoin]
      dsimp only
      split
      · exact onlyRoom_setPeer _ _ peer
      · rfl

end

variable [FloatBits F]

/-- The operation that a call makes the room perform, if any. -/
def operation (m : GameRoomManager F) : Call → Option (GameRoom.Op F)
  | .join peer _ => m.enrolls peer
  | .leaveByPeer peer => (m.findBinding peer).map fun b => .removePlayer b.playerId
  | .handlePacket env packet peer =>
      if packet.header.msgType = .kC2SJoin then
        (GameCodec.decodeJoin packet).bind fun _ => m.enrolls peer
      else m.bySender peer packet fun room p => room.operation env packet p
  | .tickAll ord => (m.findRoom kSingleRoomId).map fun _ => .tick ord

section

variable {m : GameRoomManager F} {e : Bytes ≃. PlayerBinding}

/-! ## Every call -/

/-- **Handling a packet** makes the room perform the operation of its sender. -/
theorem onlyRoom_handlePacket (hm : Refines m e) (hone : m.OneRoom) (env : Environment)
    (packet : GamePacket) (peer : SockAddrIn) :
    (m.handlePacket env packet peer).2.onlyRoom
      = performs m.onlyRoom (m.operation (.handlePacket env packet peer)) := by
  unfold handlePacket operation
  dsimp only
  split
  · exact m.onlyRoom_handleJoin packet peer
  split
  · rename_i hinput
    apply onlyRoom_handleAs hm hone
    · intro hnone room p
      simp only [GameRoom.operation, if_pos hinput, hnone, Option.map_none]
    · intro m' b room input _ hroom hdec
      simp only [GameRoom.operation, if_pos hinput, hdec, Option.map_some, Option.elim_some]
      exact modifyRoom_congr hroom _
    · intro room p op hop
      simp only [GameRoom.operation, if_pos hinput, Option.mem_map] at hop
      obtain ⟨input, -, rfl⟩ := hop
      trivial
  split
  · rename_i hinput hfire
    apply onlyRoom_handleAs hm hone
    · intro hnone room p
      simp only [GameRoom.operation, if_neg hinput, if_pos hfire, hnone, Option.bind_none]
    · intro m' b room fire hfiled hroom hdec
      have hshot := GameRoom.applyFire_room hfiled env.ord b.playerId fire
      simp only [GameRoom.operation, if_neg hinput, if_pos hfire, hdec, Option.bind_some]
      split
      · rename_i htarget
        rw [if_pos htarget] at hshot
        rw [hshot]
        rfl
      · rename_i htarget
        rw [if_neg htarget] at hshot
        rw [hshot]
        exact modifyRoom_of_fixed hroom
    · intro room p op hop
      simp only [GameRoom.operation, if_neg hinput, if_pos hfire, Option.mem_def,
        Option.bind_eq_some_iff] at hop
      obtain ⟨fire, -, hop⟩ := hop
      split at hop
      · obtain rfl := Option.some.inj hop
        trivial
      · cases hop
  split
  · rename_i hinput hfire hchat
    have htype : packet.header.msgType ≠ .kC2SWeapon ∧ packet.header.msgType ≠ .kC2SRespawn
        ∧ packet.header.msgType ≠ .kC2SProfile := by
      rw [hchat]
      decide
    apply onlyRoom_handleAs hm hone
    · intro _ room p
      simp only [GameRoom.operation, hinput, hfire, htype, if_false]
    · intro m' b room chat _ hroom hdec
      simp only [GameRoom.operation, hinput, hfire, htype, if_false, Option.elim_none]
    · intro room p op hop
      simp only [GameRoom.operation, hinput, hfire, htype, if_false, Option.mem_def] at hop
      cases hop
  split
  · rename_i hinput hfire _ hweapon
    apply onlyRoom_handleAs hm hone
    · intro hnone room p
      simp only [GameRoom.operation, if_neg hinput, if_neg hfire, if_pos hweapon, hnone, Option.map_none]
    · intro m' b room weapon _ hroom hdec
      simp only [GameRoom.operation, if_neg hinput, if_neg hfire, if_pos hweapon, hdec,
        Option.map_some, Option.elim_some]
      exact modifyRoom_congr hroom _
    · intro room p op hop
      simp only [GameRoom.operation, if_neg hinput, if_neg hfire, if_pos hweapon, Option.mem_map] at hop
      obtain ⟨weapon, -, rfl⟩ := hop
      trivial
  split
  · rename_i hinput hfire _ hweapon hrespawn
    apply onlyRoom_handleAs hm hone
    · exact fun hnone => nomatch hnone
    · intro m' b room _ _ hroom _
      simp only [GameRoom.operation, if_neg hinput, if_neg hfire, if_neg hweapon, if_pos hrespawn,
        Option.elim_some]
      rfl
    · intro room p op hop
      simp only [GameRoom.operation, if_neg hinput, if_neg hfire, if_neg hweapon, if_pos hrespawn,
        Option.mem_def, Option.some.injEq] at hop
      subst hop
      trivial
  split
  · rename_i hinput hfire _ hweapon hrespawn hprofile
    apply onlyRoom_handleAs hm hone
    · intro hnone room p
      simp only [GameRoom.operation, if_neg hinput, if_neg hfire, if_neg hweapon, if_neg hrespawn,
        if_pos hprofile, hnone, Option.map_none]
    · intro m' b room profile _ hroom hdec
      simp only [GameRoom.operation, if_neg hinput, if_neg hfire, if_neg hweapon, if_neg hrespawn,
        if_pos hprofile, hdec, Option.map_some, Option.elim_some]
      exact modifyRoom_congr hroom _
    · intro room p op hop
      simp only [GameRoom.operation, if_neg hinput, if_neg hfire, if_neg hweapon, if_neg hrespawn,
        if_pos hprofile, Option.mem_map] at hop
      obtain ⟨profile, -, rfl⟩ := hop
      trivial
  · -- a ping or an unknown type makes nobody do anything
    rename_i hinput hfire _ hweapon hrespawn hprofile
    have hnobody : performs m.onlyRoom (m.bySender peer packet fun room p =>
        room.operation env packet p) = m.onlyRoom := by
      refine performs_nobody fun room p => ?_
      simp only [GameRoom.operation, hinput, hfire, hweapon, hrespawn, hprofile, if_false]
    rw [hnobody]
    split
    · exact m.onlyRoom_resolve peer packet
    · rfl

/-- **One call** is one operation of the room, or none. -/
theorem onlyRoom_after (hm : Refines m e) (hone : m.OneRoom) (call : Call) :
    (m.after call).onlyRoom = performs m.onlyRoom (m.operation call) := by
  cases call with
  | join peer desired => exact m.onlyRoom_join peer desired
  | handlePacket env packet peer => exact onlyRoom_handlePacket hm hone env packet peer
  | leaveByPeer peer =>
      simp only [after, leaveByPeer, operation]
      cases hb : m.findBinding peer with
      | none => rfl
      | some b =>
          obtain ⟨-, room, player, hroom, -⟩ := hm.entry hb
          have hid : b.roomId = kSingleRoomId := hone _ room hroom
          rw [hid] at hroom
          have hremove : (m.modifyRoom b.roomId fun room => room.removePlayer b.playerId).onlyRoom
              = (room.removePlayer b.playerId).anonymous := by
            rw [hid, modifyRoom_congr hroom]
            exact onlyRoom_modifyRoom hroom _
          rw [Option.map_some, performs, Option.elim_some, onlyRoom_of_findRoom hroom]
          exact hremove.trans (room.anonymous_removePlayer b.playerId)
  | tickAll ord =>
      simp only [after, operation, performs]
      cases hroom : m.findRoom kSingleRoomId with
      | none =>
          rw [onlyRoom, onlyRoom, findRoom_tickAll, hroom]
          rfl
      | some room =>
          rw [onlyRoom_of_findRoom hroom, Option.map_some, Option.elim_some, onlyRoom,
            findRoom_tickAll, hroom]
          exact room.anonymous_tick ord ord

end

/-! ## Runs -/

theorem OneRoom.after {m : GameRoomManager F} {e : Bytes ≃. PlayerBinding} (h : m.OneRoom)
    (hm : Refines m e) (call : Call) : (m.after call).OneRoom := by
  cases call with
  | join peer desired => exact (m.joined_join peer desired).oneRoom h
  | leaveByPeer peer => exact h.leaveByPeer peer
  | handlePacket env packet peer => exact h.handlePacket hm env packet peer
  | tickAll ord => exact h.tickAll ord

/-- The operations that some calls make the room perform. -/
def operations (m : GameRoomManager F) (calls : List Call) : List (GameRoom.Op F) :=
  (outputs after operation m calls).flatMap Option.toList

/-- A run of calls is a run of the room. -/
theorem onlyRoom_run {m : GameRoomManager F} {e : Bytes ≃. PlayerBinding} (hm : Refines m e)
    (hone : m.OneRoom) (calls : List Call) :
    (run after m calls).onlyRoom = run perform m.onlyRoom (m.operations calls) := by
  induction calls generalizing m e with
  | nil => rfl
  | cons call calls ih =>
      obtain ⟨e', -, hm'⟩ := after_follows hm call
      rw [run_cons, ih hm' (hone.after hm call), onlyRoom_after hm hone call, operations, operations,
        outputs, List.flatMap_cons, run_append]
      cases m.operation call <;> rfl

/-- **The server's room is a room.** Whatever calls are made, the room of the manager is, but for the
addresses of its players, what the operations of these calls make of a new room. -/
theorem room_performs (tickIntervalMs : UInt32) (calls : List Call) :
    (reached tickIntervalMs calls : GameRoomManager F).onlyRoom
      = run perform (GameRoom.new kSingleRoomId tickIntervalMs)
          (operations (new tickIntervalMs) calls) :=
  onlyRoom_run (refines_new tickIntervalMs) (oneRoom_new tickIntervalMs) calls

end GameRoomManager

end LightNet.Game
