/-
# LightNet.Game.Scores — the manager keeps a scoreboard.

What a deed leaves of the vitals is a move of the scoreboard, and the datagrams of a deed carry the
events of the move.  So every packet and every tick is a move, and what is announced is told to
everybody in the room.
-/
import LightNet.Game.Scoreboard
import LightNet.Game.Serving

namespace LightNet.Game

open LightNet.Foundation LightNet.Core LightNet.Net
open Function (update)

/-! ## The rooms keep scoreboards -/

variable {F : Type}

namespace GameRoom

/-- The scoreboard of a room. -/
def scores (room : GameRoom F) : Scoreboard := fun q => (room.findPlayer q).map GamePlayer.vitals

theorem scores_modifyPlayer {room : GameRoom F} {p : UInt32} {player : GamePlayer F}
    (hplayer : room.findPlayer p = some player) (f : GamePlayer F → GamePlayer F) :
    (room.modifyPlayer p f).scores = update room.scores p (some (f player).vitals) := by
  funext q
  rw [scores, findPlayer_modifyPlayer]
  by_cases hq : q = p
  · subst hq
    rw [if_pos rfl, hplayer, Function.update_self]
    rfl
  · rw [if_neg hq, Function.update_of_ne hq, scores]

theorem scores_of_same {f : GamePlayer F → GamePlayer F}
    (hf : ∀ player, (f player).vitals = player.vitals) (room : GameRoom F) (p : UInt32) :
    (room.modifyPlayer p f).scores = room.scores := by
  funext q
  rw [scores, findPlayer_modifyPlayer]
  split
  · rename_i hq
    rw [hq, Option.map_map, scores]
    congr 1
    exact funext hf
  · rfl

variable [FloatArith F] {type : GameMsgType} {room room' : GameRoom F} {p : UInt32}
  {evs : List GameEventPayload}

/-- **A deed is a move of the scoreboard.** -/
theorem Deed.move (h : Deed type room p room' evs) :
    Scoreboard.Move (some (type, some p)) room.scores room'.scores evs := by
  have hseen : ∀ {q : UInt32} {player : GamePlayer F}, room.findPlayer q = some player →
      room.scores q = some player.vitals := by
    intro q player hplayer
    rw [scores, hplayer, Option.map_some]
  cases h with
  | idle hother => exact .rest
  | conduct hother hvitals hover =>
      rw [scores_of_same hvitals]
      exact .rest
  | hit htype hmatch hshooter haim htarget hlive hne hhp =>
      rw [scores_modifyPlayer htarget]
      exact .hit (by rw [htype]) (hseen hshooter) haim (hseen htarget) hlive hne hhp
  | @kill t shooter target htype hmatch hshooter haim htarget hlive hne hhp =>
      have hshooter' : (room.modifyPlayer t GamePlayer.killed).findPlayer p = some shooter := by
        rw [findPlayer_modifyPlayer, if_neg hne.symm, hshooter]
      rw [scores_modifyPlayer hshooter', scores_modifyPlayer htarget]
      exact .kill (by rw [htype]) (hseen hshooter) haim (hseen htarget) hlive hne hhp
  | @revive player htype hplayer hgranted =>
      have hdead : player.alive = false := by
        rw [← Bool.not_eq_true]
        exact fun halive => hgranted (.inl halive)
      rw [scores_modifyPlayer hplayer]
      exact .revive (by rw [htype]) (hseen hplayer) hdead
  | refuse htype hplayer hrefused => exact .refuse (by rw [htype]) (hseen hplayer)

end GameRoom

namespace GameRoomManager

/-- The scoreboard of the only room. -/
def scores (m : GameRoomManager F) : Scoreboard :=
  fun q => (m.record ⟨kSingleRoomId, q⟩).map GamePlayer.vitals

theorem scores_of_findRoom {m : GameRoomManager F} {room : GameRoom F}
    (hroom : m.findRoom kSingleRoomId = some room) : m.scores = room.scores := by
  funext q
  rw [scores, record_of_findRoom hroom, GameRoom.scores]

/-! ## Life and score of a player -/

/-- The `hp` of a player, wherever it is. -/
def hp (m : GameRoomManager F) (b : PlayerBinding) : Option UInt16 :=
  (m.record b).map GamePlayer.hp

/-- Whether a player is alive, wherever it is. -/
def alive (m : GameRoomManager F) (b : PlayerBinding) : Option Bool :=
  (m.record b).map GamePlayer.alive

/-- The player that an event is about. -/
def targetOf (ev : GameEventPayload) : PlayerBinding := ⟨kSingleRoomId, ev.targetId⟩

/-- The player that a hit or a kill is due to. -/
def shooterOf (ev : GameEventPayload) : PlayerBinding := ⟨kSingleRoomId, ev.extra⟩

theorem alive_eq_scores (m : GameRoomManager F) (q : UInt32) :
    m.alive ⟨kSingleRoomId, q⟩ = (m.scores q).map Vitals.alive := by
  rw [alive, scores, Option.map_map]
  rfl

theorem hp_eq_scores (m : GameRoomManager F) (q : UInt32) :
    m.hp ⟨kSingleRoomId, q⟩ = m.scores.hp q := by
  rw [hp, Scoreboard.hp, scores, Option.map_map]
  rfl

/-- Outside the only room there is nobody. -/
theorem OneRoom.record_eq_none {m : GameRoomManager F} (hone : m.OneRoom) {b : PlayerBinding}
    (hb : b.roomId ≠ kSingleRoomId) : m.record b = none := by
  cases hroom : m.findRoom b.roomId with
  | none => rw [record, hroom, Option.bind_none]
  | some room => exact absurd (hone _ _ hroom) hb

theorem Readdressed.scores {m m' : GameRoomManager F} (h : Readdressed m m') :
    m'.scores = m.scores := by
  funext q
  have hstanding := congrArg (Option.map Standing.vitals) (h.standing ⟨kSingleRoomId, q⟩)
  simp only [GameRoomManager.standing, Option.map_map] at hstanding
  exact hstanding

theorem Readdressed.alive {m m' : GameRoomManager F} (h : Readdressed m m') (b : PlayerBinding) :
    m'.alive b = m.alive b := by
  have hstanding := congrArg (Option.map fun seen => seen.vitals.alive) (h.standing b)
  simp only [GameRoomManager.standing, Option.map_map] at hstanding
  exact hstanding

variable [FloatArith F]

theorem Joined.move {m m' : GameRoomManager F} (h : Joined m m') (who : Option UInt32) :
    Scoreboard.Move (some (.kC2SJoin, who)) m.scores m'.scores [] := by
  obtain hsame | ⟨p, peer, idx, hfree, hnew⟩ := h.records
  · have hscores : m'.scores = m.scores := by
      funext q
      rw [scores, hsame, scores]
    rw [hscores]
    exact .rest
  · have hscores : m'.scores = update m.scores p (some .fresh) := by
      funext q
      rw [scores, hnew]
      by_cases hq : q = p
      · subst hq
        rw [if_pos rfl, Function.update_self]
        rfl
      · have hb : (⟨kSingleRoomId, q⟩ : PlayerBinding) ≠ ⟨kSingleRoomId, p⟩ := by
          intro heq
          exact hq (congrArg PlayerBinding.playerId heq)
        rw [if_neg hb, Function.update_of_ne hq, scores]
    rw [hscores]
    refine .enroll rfl ?_
    rw [scores, hfree, Option.map_none]

variable [FloatBits F]

/-! ## The steps of the scoreboard -/

/-- What an input is about. -/
def label (m : GameRoomManager F) : Input → Scoreboard.Label
  | .datagram _ packet peer =>
      some (packet.header.msgType, (m.sender peer packet).map PlayerBinding.playerId)
  | .tick _ => none

/-- **The manager refines the scoreboard**: an input is a move, with the events that are sent. -/
theorem serve_move {m : GameRoomManager F} {e : Bytes ≃. PlayerBinding} (hm : Refines m e)
    (hone : m.OneRoom) (i : Input) :
    Scoreboard.Move (m.label i) m.scores (m.next i).scores (events (m.serve i).1) := by
  cases i with
  | tick ord =>
      have hscores : (m.tickAll ord).2.scores = m.scores := funext fun q => m.vitals_tickAll ord _
      show Scoreboard.Move _ m.scores (m.tickAll ord).2.scores (events (m.tickAll ord).1)
      rw [hscores, events_tickAll]
      exact .rest
  | datagram env packet peer =>
      show Scoreboard.Move _ m.scores (m.handlePacket env packet peer).2.scores
        (events (m.handlePacket env packet peer).1)
      have hout := handlePacket_outcome hm env packet peer
      have hresolved := (m.readdressed_resolve peer packet).scores
      rw [label]
      generalize m.handlePacket env packet peer = out at hout ⊢
      cases hout with
      | join desired htype hsent =>
          rw [hsent, htype]
          exact (m.joined_join peer desired).move _
      | @drop sent m' hm' hsent hsender =>
          have hscores : m'.scores = m.scores := by
            rcases hm' with heq | heq
            · rw [heq]
            · rw [heq, hresolved]
          rw [hsent, hscores]
          exact .rest
      | @act b room room' evs hsender hroom hdeed =>
          obtain ⟨r, p⟩ := b
          obtain rfl : r = kSingleRoomId := hone.resolve peer packet r room hroom
          have hafter : ((m.resolveAndRefreshPeer peer packet).2.modifyRoom kSingleRoomId
              fun _ => room').scores = room'.scores := by
            apply scores_of_findRoom
            rw [findRoom_modifyRoom, if_pos rfl, hroom]
            rfl
          rw [hdeed.events_eq, hafter, ← hresolved, scores_of_findRoom hroom, hsender]
          exact hdeed.move

/-- What is announced is told to every player there is. -/
theorem everyone_told {m : GameRoomManager F} {e : Bytes ≃. PlayerBinding} (hm : Refines m e)
    (hone : m.OneRoom) (i : Input) {ev : GameEventPayload} (hev : ev ∈ events (m.serve i).1)
    {b : PlayerBinding} {player : GamePlayer F} (hplayer : (m.next i).record b = some player) :
    ∃ d ∈ (m.serve i).1, d.peer = player.peer ∧ eventOf d = some ev := by
  cases i with
  | tick ord =>
      have hnone : events (m.serve (.tick ord)).1 = [] := m.events_tickAll ord
      rw [hnone] at hev
      exact absurd hev List.not_mem_nil
  | datagram env packet peer =>
      have hplayer : (m.handlePacket env packet peer).2.record b = some player := hplayer
      have hev : ev ∈ events (m.handlePacket env packet peer).1 := hev
      show ∃ d ∈ (m.handlePacket env packet peer).1, _
      have hone' := hone.handlePacket hm env packet peer
      have hout := handlePacket_outcome hm env packet peer
      generalize m.handlePacket env packet peer = out at hout hplayer hev hone' ⊢
      cases hout with
      | join desired htype hsent =>
          rw [hsent] at hev
          exact absurd hev List.not_mem_nil
      | drop hm' hsent hsender =>
          rw [hsent] at hev
          exact absurd hev List.not_mem_nil
      | @act b' room room' evs hsender hroom hdeed =>
          rw [hdeed.events_eq] at hev
          -- the room of the deed is the only one
          obtain ⟨room'', hroom'', hfound⟩ := record_eq_some.mp hplayer
          have hb : b.roomId = b'.roomId :=
            (hone' _ _ hroom'').trans (hone.resolve peer packet _ _ hroom).symm
          rw [findRoom_modifyRoom, if_pos hb, hroom, Option.map_some] at hroom''
          obtain rfl : room' = room'' := Option.some.inj hroom''
          exact announce_reaches hfound hev

end GameRoomManager

end LightNet.Game
