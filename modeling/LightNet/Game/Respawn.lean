/-
# LightNet.Game.Respawn — who is announced to be back.

The room decides on a respawn request, and does not say how; the manager announces the respawn in any
case.  So the announcement is true unless the room has refused: for a player who lives, whose timer is
still running, or whose match is over.
-/
import LightNet.Game.Malformed
import LightNet.Game.Scores

namespace LightNet.Game

open LightNet.Foundation LightNet.Core LightNet.Net
open FloatArith (sqrt sin cos lt le)

variable {F : Type}

namespace GameRoomManager

section

variable [FloatArith F]

/-- The packet asks for a respawn, and the room of the player that it speaks for refuses. -/
def Refused (m : GameRoomManager F) (packet : GamePacket) (peer : SockAddrIn) : Prop :=
  packet.header.msgType = .kC2SRespawn ∧ ∃ b room player, m.sender peer packet = some b
    ∧ m.findRoom b.roomId = some room ∧ room.findPlayer b.playerId = some player
    ∧ room.Refuses player

/-- What the room decides does not depend on the address that has just been replaced. -/
theorem Readdressed.refuses_iff {m m' : GameRoomManager F} (h : Readdressed m m')
    {b : PlayerBinding} {room room' : GameRoom F} {player player' : GamePlayer F}
    (hroom : m.findRoom b.roomId = some room) (hplayer : room.findPlayer b.playerId = some player)
    (hroom' : m'.findRoom b.roomId = some room')
    (hplayer' : room'.findPlayer b.playerId = some player') :
    room'.Refuses player' ↔ room.Refuses player := by
  have hclock := (h.clock b.roomId).trans (clock_of_findRoom hroom)
  obtain ⟨hover, -⟩ := clock_eq_some hclock hroom'
  obtain ⟨address, hrecord⟩ := h.record
  have hsame := hrecord b
  rw [record_eq_some.mpr ⟨room, hroom, hplayer⟩, record_eq_some.mpr ⟨room', hroom', hplayer'⟩] at hsame
  obtain rfl := Option.some.inj hsame
  rw [GameRoom.Refuses, GameRoom.Refuses, hover]

end

variable [FloatArith F] [FloatBits F]

/-- Respawns are announced exactly of those who come back, and a refusal is not answered. -/
def TellsRespawns (m : GameRoomManager F) (env : Environment) (packet : GamePacket)
    (peer : SockAddrIn) : Prop :=
  let (sent, m') := m.handlePacket env packet peer
  (∀ b, (∃ ev ∈ events sent, ev.eventType = .kRespawn ∧ ev.value = 100 ∧ targetOf ev = b)
      ↔ m.alive b = some false ∧ m'.alive b = some true ∧ m'.hp b = some 100)
    ∧ (m.Refused packet peer → sent = [])

section

variable {m : GameRoomManager F} {e : Bytes ≃. PlayerBinding} {env : Environment}
  {packet : GamePacket} {peer : SockAddrIn}

/-! ## What is told -/

/-- Nobody comes back unannounced. -/
theorem announced_of_revived (hm : Refines m e) (hone : m.OneRoom) {b : PlayerBinding}
    (hbefore : m.alive b = some false)
    (halive : (m.handlePacket env packet peer).2.alive b = some true)
    (hhp : (m.handlePacket env packet peer).2.hp b = some 100) :
    ∃ ev ∈ events (m.handlePacket env packet peer).1, ev.eventType = .kRespawn ∧ ev.value = 100
      ∧ targetOf ev = b := by
  obtain ⟨r, q⟩ := b
  obtain rfl : r = kSingleRoomId := by
    by_contra hr
    rw [alive, hone.record_eq_none hr] at hbefore
    cases hbefore
  have hmove := serve_move hm hone (.datagram env packet peer)
  have hrevives : Scoreboard.Revives m.scores (m.handlePacket env packet peer).2.scores q := by
    rw [alive_eq_scores] at hbefore halive
    rw [hp_eq_scores] at hhp
    refine ⟨hbefore, ?_⟩
    obtain ⟨v, hv, hlive⟩ := Option.map_eq_some_iff.mp halive
    rw [Scoreboard.hp, hv, Option.map_some] at hhp
    rw [hv, Option.map_some, hlive, Option.some.inj hhp]
  obtain ⟨ev, hev, htype, hvalue, hid⟩ := hmove.of_revives hrevives
  exact ⟨ev, hev, htype, hvalue, by rw [targetOf, hid]⟩

/-- Unless the room has refused, who is announced comes back. -/
theorem revived_of_announced (hm : Refines m e) (hone : m.OneRoom) (hrefused : ¬m.Refused packet peer)
    {ev : GameEventPayload} (hev : ev ∈ events (m.handlePacket env packet peer).1)
    (hback : ev.eventType = .kRespawn) :
    m.alive (targetOf ev) = some false
      ∧ (m.handlePacket env packet peer).2.alive (targetOf ev) = some true
      ∧ (m.handlePacket env packet peer).2.hp (targetOf ev) = some 100 := by
  have hresolved := m.readdressed_resolve peer packet
  have hout := handlePacket_outcome hm env packet peer
  generalize m.handlePacket env packet peer = out at hout hev ⊢
  cases hout with
  | join desired htype hsent =>
      rw [hsent] at hev
      exact absurd hev List.not_mem_nil
  | drop hm' hsent hsender =>
      rw [hsent] at hev
      exact absurd hev List.not_mem_nil
  | @act b room room' evs hsender hroom hdeed =>
      have hevents := hdeed.events_eq env.ord
      dsimp only at hev ⊢
      rw [hevents] at hev
      cases hdeed with
      | idle hother => exact absurd hev List.not_mem_nil
      | conduct hother hvitals hover => exact absurd hev List.not_mem_nil
      | hit htype hmatch hshooter haim htarget hlive hne hhp =>
          rw [List.mem_singleton.mp hev] at hback
          exact absurd hback kRespawn_ne_kHit.symm
      | kill htype hmatch hshooter haim htarget hlive hne hhp =>
          rcases List.mem_cons.mp hev with heq | hmem
          · rw [heq] at hback
            exact absurd hback kRespawn_ne_kHit.symm
          · rw [List.mem_singleton.mp hmem] at hback
            exact absurd hback kRespawn_ne_kKill.symm
      | @revive player htype hplayer hgranted =>
          have hone' : b.roomId = kSingleRoomId := hone.resolve peer packet _ _ hroom
          have hb : targetOf ev = b := by
            rw [List.mem_singleton.mp hev, targetOf, ← hone']
            rfl
          have hrecord := record_act hroom (room.modifyPlayer b.playerId fun player =>
            player.respawn b.playerId) b
          rw [if_pos rfl, GameRoom.findPlayer_modifyPlayer, if_pos rfl, hplayer] at hrecord
          rw [hb]
          refine ⟨?_, ?_, ?_⟩
          · -- not refused, so dead before
            rw [← hresolved.alive, alive, record_eq_some.mpr ⟨room, hroom, hplayer⟩, Option.map_some,
              Option.some_inj, ← Bool.not_eq_true]
            exact fun halive => hgranted (.inl halive)
          · rw [alive, hrecord]
            rfl
          · rw [hp, hrecord]
            rfl
      | @refuse player htype hplayer hrefuses =>
          obtain ⟨old, hold⟩ := hm.record_of_sender hsender
          obtain ⟨room₀, hroom₀, hold⟩ := record_eq_some.mp hold
          have hsame := hresolved.refuses_iff hroom₀ hold hroom hplayer
          exact absurd ⟨htype, b, room₀, old, hsender, hroom₀, hold, hsame.mp hrefuses⟩ hrefused

/-- A refusal is answered all the same. -/
theorem not_tellsRespawns_of_refused (hm : Refines m e) (hr : m.Refused packet peer) :
    ¬m.TellsRespawns env packet peer := by
  rintro ⟨-, hquiet⟩
  have hsent : (m.handlePacket env packet peer).1 = [] := hquiet hr
  obtain ⟨htype, b, room, player, hsender, -⟩ := hr
  have hout := handlePacket_outcome hm env packet peer
  generalize m.handlePacket env packet peer = out at hout hsent
  cases hout with
  | join desired hjoin hevents =>
      rw [htype] at hjoin
      exact absurd hjoin (by decide)
  | drop hm' hevents hnone =>
      rw [hnone htype] at hsender
      cases hsender
  | @act b' room room' evs hsender' hroom hdeed =>
      have hsent : evs.flatMap (sendEvent env.ord room') = [] := hsent
      have hevs := hdeed.events_eq env.ord
      rw [hsent, events_nil] at hevs
      -- the deed of a respawn request announces something
      subst hevs
      cases hdeed with
      | idle hother => exact hother htype
      | conduct hother hvitals hover => exact hother htype

/-- **The announcement is true exactly if the room has not refused.** -/
theorem Refines.tells_iff_not_refused (hm : Refines m e) (hone : m.OneRoom) :
    m.TellsRespawns env packet peer ↔ ¬m.Refused packet peer := by
  constructor
  · intro htells hrefused
    exact not_tellsRespawns_of_refused hm hrefused htells
  · intro hrefused
    refine ⟨fun b => ⟨?_, ?_⟩, fun h => absurd h hrefused⟩
    · rintro ⟨ev, hev, htype, -, rfl⟩
      exact revived_of_announced hm hone hrefused hev htype
    · rintro ⟨hbefore, halive, hhp⟩
      exact announced_of_revived hm hone hbefore halive hhp

end

/-! ## Every reachable state -/

/-- **Respawn events tell the truth exactly where nothing is refused**, in every reachable state and
for every packet. -/
theorem tellsRespawns_iff (tickIntervalMs : UInt32) (calls : List Call) (env : Environment)
    (packet : GamePacket) (peer : SockAddrIn) :
    (reached tickIntervalMs calls : GameRoomManager F).TellsRespawns env packet peer
      ↔ ¬(reached tickIntervalMs calls : GameRoomManager F).Refused packet peer := by
  obtain ⟨e, -, hm⟩ := reached_refines (F := F) tickIntervalMs calls
  exact hm.tells_iff_not_refused (oneRoom_reached tickIntervalMs calls)

/-- A respawn request. -/
def respawnRequest : GamePacket where
  header := { msgType := .kC2SRespawn }
  payload := []

/-- A player that has just joined, and lives, asks for a respawn: it is refused and announced. -/
theorem respawn_misled :
    ¬(reached 33 [.join member 1] : GameRoomManager Binary32).TellsRespawns ⟨.entries _, 0, 0⟩
      respawnRequest member := by
  obtain ⟨e, -, hm⟩ := reached_refines (F := Binary32) 33 [.join member 1]
  apply not_tellsRespawns_of_refused hm
  exact ⟨rfl, ⟨1, 1⟩, _, _, rfl, rfl, rfl, .inl rfl⟩

end GameRoomManager

end LightNet.Game
