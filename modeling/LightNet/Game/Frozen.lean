/-
# LightNet.Game.Frozen — after the match the result stays.

There is no gate in front of the room: each operation looks at `match_over_` on its own, or has been
left without a look on purpose.  Together they keep the standing of every player who is there, and a
clock that has run down never runs again.
-/
import LightNet.Game.Malformed
import LightNet.Game.Serving

namespace LightNet.Game

open LightNet.Foundation LightNet.Core LightNet.Net

variable {F : Type}

/-! ## The room -/

namespace GamePlayer

variable [FloatArith F]

/-- After the match nobody is moved. -/
@[simp] theorem move_of_over (dt : F) (player : GamePlayer F) : player.move true dt = player := by
  simp only [move, Bool.or_true, if_true]

end GamePlayer

namespace GameRoom

/-- The match is over when no time is left, and only then. -/
def Timed (room : GameRoom F) : Prop := room.matchOver = true ↔ room.timeLeftSec = 0

variable [FloatArith F]

theorem timed_new (roomId tickIntervalMs : UInt32) :
    (GameRoom.new roomId tickIntervalMs : GameRoom F).Timed :=
  iff_of_false Bool.false_ne_true (show (300 : UInt32) ≠ 0 by decide)

theorem advanceClock_of_over {room : GameRoom F} (h : room.matchOver = true) (dt : F) :
    room.advanceClock dt = room := by
  rw [advanceClock, if_pos h]

theorem timed_advanceClock {room : GameRoom F} (h : room.Timed) (dt : F) :
    (room.advanceClock dt).Timed := by
  unfold advanceClock
  split
  · exact h
  · simp only [Timed, beq_iff_eq]

/-- The clock after a tick is the one that `advanceClock` has set. -/
theorem tick_clock (ord : IterOrder UInt32) (room : GameRoom F) :
    (room.tick ord).2.matchOver
        = (room.advanceClock ((room.tickIntervalMs.toNat : F) / 1000.0)).matchOver
      ∧ (room.tick ord).2.timeLeftSec
        = (room.advanceClock ((room.tickIntervalMs.toNat : F) / 1000.0)).timeLeftSec := by
  simp only [tick, simulateMovement, simulateRespawn, advanceClock]
  split
  · exact ⟨rfl, rfl⟩
  · exact ⟨rfl, rfl⟩

theorem Timed.tick {room : GameRoom F} (h : room.Timed) (ord : IterOrder UInt32) :
    (room.tick ord).2.Timed := by
  obtain ⟨hover, htime⟩ := tick_clock ord room
  rw [Timed, hover, htime]
  exact timed_advanceClock h _

variable {type : GameMsgType} {room room' : GameRoom F} {p : UInt32} {evs : List GameEventPayload}

/-- No deed touches the clock. -/
theorem Deed.clock (h : Deed type room p room' evs) :
    room'.matchOver = room.matchOver ∧ room'.timeLeftSec = room.timeLeftSec := by
  cases h <;> exact ⟨rfl, rfl⟩

/-- After the match a deed changes nobody's standing and announces a respawn at most. -/
theorem Deed.of_over (h : Deed type room p room' evs) (hover : room.matchOver = true) :
    (∀ q, (room'.findPlayer q).map GamePlayer.standing = (room.findPlayer q).map GamePlayer.standing)
      ∧ ∀ ev ∈ evs, ev.eventType = .kRespawn := by
  have hmatch : room.matchOver ≠ false := by simp [hover]
  cases h with
  | idle hother => exact ⟨fun q => rfl, fun ev hev => absurd hev List.not_mem_nil⟩
  | conduct hother hvitals hstanding =>
      refine ⟨?_, fun ev hev => absurd hev List.not_mem_nil⟩
      intro q
      rw [findPlayer_modifyPlayer]
      split
      · rename_i hq
        rw [hq, Option.map_map]
        congr 1
        exact funext (hstanding hover)
      · rfl
  | hit htype hrunning hshooter haim htarget hlive hne hhp => exact absurd hrunning hmatch
  | kill htype hrunning hshooter haim htarget hlive hne hhp => exact absurd hrunning hmatch
  | revive htype hplayer hgranted => exact absurd (.inr (.inl hover)) hgranted
  | refuse htype hplayer hrefused =>
      refine ⟨fun q => rfl, ?_⟩
      intro ev hev
      rw [List.mem_singleton.mp hev]
      rfl

end GameRoom

/-! ## The manager -/

namespace GameRoomManager

/-- The match in room `r` is over, nothing is left on its clock, and who is in `result` is there with
the standing it has in `result`. -/
structure Frozen (m : GameRoomManager F) (r : UInt32) (result : UInt32 → Option (Standing F)) :
    Prop where
  clock : m.clock r = some (true, 0)
  standing : ∀ q seen, result q = some seen → m.standing ⟨r, q⟩ = some seen

variable {m m' : GameRoomManager F} {r : UInt32} {result : UInt32 → Option (Standing F)}

theorem Readdressed.frozen (h : Readdressed m m') (hf : Frozen m r result) : Frozen m' r result where
  clock := (h.clock r).trans hf.clock
  standing := by
    intro q seen hseen
    rw [h.standing]
    exact hf.standing q seen hseen

theorem Joined.frozen [FloatArith F] (h : Joined m m') (hf : Frozen m r result) : Frozen m' r result where
  clock := by
    obtain hsame | ⟨hnone, -⟩ := h.clocks r
    · exact hsame.trans hf.clock
    · have hclock := hf.clock
      rw [hnone] at hclock
      cases hclock
  standing := by
    intro q seen hseen
    have hbefore := hf.standing q seen hseen
    obtain hsame | ⟨p, peer, idx, hfree, hnew⟩ := h.records
    · rw [GameRoomManager.standing, hsame]
      exact hbefore
    · -- the new player does not take the place of somebody who is there
      have hne : (⟨r, q⟩ : PlayerBinding) ≠ ⟨kSingleRoomId, p⟩ := by
        intro heq
        rw [GameRoomManager.standing, heq, hfree] at hbefore
        cases hbefore
      rw [GameRoomManager.standing, hnew, if_neg hne]
      exact hbefore

/-- In every room the match is over when no time is left, and only then. -/
def Timed (m : GameRoomManager F) : Prop := ∀ r room, m.findRoom r = some room → room.Timed

/-! ## One step -/

theorem timed_of_clock {m m' : GameRoomManager F} (h : m.Timed) (hclocks : ClocksKept m m') :
    m'.Timed := by
  intro r room' hroom'
  obtain hsame | ⟨-, hnew⟩ := hclocks r
  · rw [clock_of_findRoom hroom'] at hsame
    obtain ⟨room, hroom, -⟩ := Option.map_eq_some_iff.mp hsame.symm
    obtain ⟨hover, htime⟩ := clock_eq_some hsame.symm hroom
    rw [GameRoom.Timed, ← hover, ← htime]
    exact h r room hroom
  · obtain ⟨hover, htime⟩ := clock_eq_some hnew hroom'
    rw [GameRoom.Timed, hover, htime]
    decide

variable [FloatArith F]

/-- A deed in this room or in another one. -/
theorem frozen_act {type : GameMsgType} {b : PlayerBinding} {room room' : GameRoom F}
    {evs : List GameEventPayload} (hf : Frozen m r result)
    (hroom : m.findRoom b.roomId = some room) (hdeed : room.Deed type b.playerId room' evs) :
    Frozen (m.modifyRoom b.roomId fun _ => room') r result where
  clock := by
    rw [← hf.clock]
    apply m.clock_modifyRoom
    intro old hold
    obtain rfl : old = room := Option.some.inj (hold.symm.trans hroom)
    exact hdeed.clock
  standing := by
    intro q seen hseen
    have hbefore := hf.standing q seen hseen
    rw [standing, record_act hroom]
    split
    · rename_i hr
      obtain rfl : r = b.roomId := hr
      obtain ⟨hover, -⟩ := clock_eq_some hf.clock hroom
      rw [standing, record_of_findRoom hroom] at hbefore
      exact ((hdeed.of_over hover).1 q).trans hbefore
    · exact hbefore

variable [FloatBits F]

theorem frozen_tickAll (hf : Frozen m r result) (ord : IterOrder UInt32) :
    Frozen (m.tickAll ord).2 r result := by
  obtain ⟨room, hroom, -⟩ := Option.map_eq_some_iff.mp hf.clock
  obtain ⟨hover, htime⟩ := clock_eq_some hf.clock hroom
  obtain ⟨hover', htime'⟩ := GameRoom.tick_clock ord room
  rw [GameRoom.advanceClock_of_over hover] at hover' htime'
  have hnext : (m.tickAll ord).2.findRoom r = some (room.tick ord).2 := by
    rw [findRoom_tickAll, hroom, Option.map_some]
  constructor
  · rw [clock_of_findRoom hnext, hover', htime', hover, htime]
  · intro q seen hseen
    have hbefore := hf.standing q seen hseen
    rw [standing, record_of_findRoom hroom] at hbefore
    rw [standing, record_of_findRoom hnext, findPlayer_tick, hover', hover, Option.map_map, ← hbefore]
    congr 1
    funext player
    exact (congrArg GamePlayer.standing (GamePlayer.move_of_over _ _)).trans
      (GamePlayer.standing_coolDown _ player)

/-- **Nothing moves a frozen result.** -/
theorem frozen_next {e : Bytes ≃. PlayerBinding} (hm : Refines m e) (hf : Frozen m r result)
    (i : Input) : Frozen (m.next i) r result := by
  cases i with
  | tick ord => exact frozen_tickAll hf ord
  | datagram env packet peer =>
      show Frozen (m.handlePacket env packet peer).2 r result
      have hout := handlePacket_outcome hm env packet peer
      have hresolved := (m.readdressed_resolve peer packet).frozen hf
      generalize m.handlePacket env packet peer = out at hout ⊢
      cases hout with
      | join desired htype hsent => exact (m.joined_join peer desired).frozen hf
      | drop hm' hsent hsender =>
          rcases hm' with rfl | rfl
          · exact hf
          · exact hresolved
      | act hsender hroom hdeed => exact frozen_act hresolved hroom hdeed

/-- After the match neither a hit nor a kill is announced. -/
theorem respawns_only {e : Bytes ≃. PlayerBinding} (hm : Refines m e) (hone : m.OneRoom)
    (hf : Frozen m r result) (i : Input) :
    ∀ ev ∈ events (m.serve i).1, ev.eventType = .kRespawn := by
  intro ev hev
  cases i with
  | tick ord =>
      have hnone : events (m.serve (.tick ord)).1 = [] := m.events_tickAll ord
      rw [hnone] at hev
      exact absurd hev List.not_mem_nil
  | datagram env packet peer =>
      have hev : ev ∈ events (m.handlePacket env packet peer).1 := hev
      have hout := handlePacket_outcome hm env packet peer
      generalize m.handlePacket env packet peer = out at hout hev
      cases hout with
      | join desired htype hsent =>
          rw [hsent] at hev
          exact absurd hev List.not_mem_nil
      | drop hm' hsent hsender =>
          rw [hsent] at hev
          exact absurd hev List.not_mem_nil
      | @act b room room' evs hsender hroom hdeed =>
          rw [hdeed.events_eq] at hev
          -- the room of the deed is the one in which the match is over
          obtain rfl : b.roomId = r := by
            obtain ⟨old, hold, -⟩ := Option.map_eq_some_iff.mp hf.clock
            exact (hone.resolve peer packet _ _ hroom).trans (hone r old hold).symm
          have hresolved := (m.readdressed_resolve peer packet).frozen hf
          obtain ⟨hover, -⟩ := clock_eq_some hresolved.clock hroom
          exact (hdeed.of_over hover).2 ev hev

/-! ## Every reachable state -/

theorem Timed.after {e : Bytes ≃. PlayerBinding} (h : m.Timed) (hm : Refines m e) (call : Call) :
    (m.after call).Timed := by
  have hresolve : ∀ peer packet, ClocksKept m (m.resolveAndRefreshPeer peer packet).2 :=
    fun peer packet r => .inl ((m.readdressed_resolve peer packet).clock r)
  cases call with
  | join peer desired => exact timed_of_clock h (m.joined_join peer desired).clocks
  | leaveByPeer peer =>
      refine timed_of_clock h fun r => .inl ?_
      show (m.leaveByPeer peer).clock r = _
      unfold leaveByPeer
      cases m.findBinding peer with
      | none => rfl
      | some b =>
          have hkept : ∀ room, m.findRoom b.roomId = some room →
              (room.removePlayer b.playerId).matchOver = room.matchOver
                ∧ (room.removePlayer b.playerId).timeLeftSec = room.timeLeftSec :=
            fun room _ => ⟨rfl, rfl⟩
          exact m.clock_modifyRoom hkept r
  | handlePacket env packet peer =>
      show (m.handlePacket env packet peer).2.Timed
      have hout := handlePacket_outcome hm env packet peer
      generalize m.handlePacket env packet peer = out at hout ⊢
      cases hout with
      | join desired htype hsent => exact timed_of_clock h (m.joined_join peer desired).clocks
      | drop hm' hsent hsender =>
          rcases hm' with rfl | rfl
          · exact h
          · exact timed_of_clock h (hresolve peer packet)
      | @act b room room' evs hsender hroom hdeed =>
          refine timed_of_clock (timed_of_clock h (hresolve peer packet)) fun r => .inl ?_
          apply clock_modifyRoom
          intro old hold
          obtain rfl : old = room := Option.some.inj (hold.symm.trans hroom)
          exact hdeed.clock
  | tickAll ord =>
      intro r room' hroom'
      have hroom' : (m.tickAll ord).2.findRoom r = some room' := hroom'
      rw [findRoom_tickAll] at hroom'
      obtain ⟨room, hroom, rfl⟩ := Option.map_eq_some_iff.mp hroom'
      exact (h r room hroom).tick ord

theorem timed_reached (tickIntervalMs : UInt32) (calls : List Call) :
    (reached tickIntervalMs calls : GameRoomManager F).Timed := by
  have hstep : ∀ (m : GameRoomManager F) (call : Call),
      (∃ e, Refines m e) ∧ m.Timed → (∃ e, Refines (m.after call) e) ∧ (m.after call).Timed := by
    rintro m call ⟨⟨e, hm⟩, h⟩
    obtain ⟨e', -, hm'⟩ := after_follows hm call
    exact ⟨⟨e', hm'⟩, h.after hm call⟩
  refine (run_invariant_of_step hstep calls ⟨⟨⊥, refines_new tickIntervalMs⟩, ?_⟩).2
  intro r room hroom
  cases hroom

/-! ## The contract -/

/-- **The result is frozen after the match.** From every reachable state in which a match is over,
whatever packets and ticks come: it stays over with no time left, every player that was there has the
standing it had, and neither a hit nor a kill is ever announced again. -/
theorem result_frozen (tickIntervalMs : UInt32) (calls : List Call) (r : UInt32) (room : GameRoom F)
    (hroom : (reached tickIntervalMs calls : GameRoomManager F).findRoom r = some room)
    (hover : room.matchOver = true) (inputs : List Input) :
    let m : GameRoomManager F := run next (reached tickIntervalMs calls) inputs
    (∃ room', m.findRoom r = some room' ∧ room'.matchOver = true ∧ room'.timeLeftSec = 0
        ∧ ∀ q player, room.findPlayer q = some player →
          ∃ player', room'.findPlayer q = some player' ∧ player'.standing = player.standing)
      ∧ ∀ i, ∀ ev ∈ events (m.serve i).1, ev.eventType ≠ .kHit ∧ ev.eventType ≠ .kKill := by
  intro m
  have hreached := reached_refines (F := F) tickIntervalMs calls
  have htimed := timed_reached (F := F) tickIntervalMs calls r room hroom
  have hstart : Frozen (reached tickIntervalMs calls : GameRoomManager F) r
      fun q => (room.findPlayer q).map GamePlayer.standing := by
    constructor
    · rw [clock_of_findRoom hroom, hover, htimed.mp hover]
    · intro q seen hseen
      rw [standing, record_of_findRoom hroom]
      exact hseen
  have hstep : ∀ (m : GameRoomManager F) (i : Input),
      ((∃ e, Refines m e) ∧ m.OneRoom ∧ Frozen m r fun q =>
        (room.findPlayer q).map GamePlayer.standing) →
      (∃ e, Refines (m.next i) e) ∧ (m.next i).OneRoom ∧ Frozen (m.next i) r fun q =>
        (room.findPlayer q).map GamePlayer.standing := by
    rintro m i ⟨⟨e, hm⟩, hone, hf⟩
    exact ⟨refines_next hm i, hone.next hm i, frozen_next hm hf i⟩
  obtain ⟨e, -, hm⟩ := hreached
  obtain ⟨⟨e', hm'⟩, hone', hf'⟩ := run_invariant_of_step hstep inputs
    ⟨⟨e, hm⟩, oneRoom_reached tickIntervalMs calls, hstart⟩
  constructor
  · obtain ⟨room', hroom', -⟩ := Option.map_eq_some_iff.mp hf'.clock
    obtain ⟨hover', htime'⟩ := clock_eq_some hf'.clock hroom'
    refine ⟨room', hroom', hover', htime', ?_⟩
    intro q player hplayer
    have hseen := hf'.standing q player.standing (by rw [hplayer, Option.map_some])
    rw [standing, record_of_findRoom hroom'] at hseen
    exact Option.map_eq_some_iff.mp hseen
  · intro i ev hev
    rw [respawns_only hm' hone' hf' i ev hev]
    exact ⟨kRespawn_ne_kHit, kRespawn_ne_kKill⟩

/-- One tick of the longest interval ends the match; then the player that is there takes a step, which
a running match would count, and another tick comes. -/
theorem result_frozen_sample :
    let ended : GameRoomManager Binary32 := reached 4294967295 [.join member 1, .tickAll (.entries _)]
    let m := run next ended [.datagram ⟨.entries _, 0, 0⟩ stepInput member, .tick (.entries _)]
    ((reached 4294967295 [.join member 1, .handlePacket ⟨.entries _, 0, 0⟩ stepInput member] :
        GameRoomManager Binary32).record ⟨1, 1⟩).map GamePlayer.moveX = some 127
      ∧ ∃ room player, m.findRoom 1 = some room ∧ room.matchOver = true ∧ room.timeLeftSec = 0
        ∧ room.findPlayer 1 = some player ∧ player.moveX = 0 := by
  intro ended m
  have hstart : (ended.findRoom 1).any (fun room => room.matchOver
      && (room.findPlayer 1).any fun player => player.moveX == 0) = true := by decide +kernel
  obtain ⟨room, hroom, hstart⟩ := (Option.any_eq_true _ _).mp hstart
  obtain ⟨hover, hthere⟩ := Bool.and_eq_true_iff.mp hstart
  obtain ⟨player, hplayer, hstill⟩ := (Option.any_eq_true _ _).mp hthere
  obtain ⟨⟨room', hroom', hover', htime, hkept⟩, -⟩ := result_frozen 4294967295
    [.join member 1, .tickAll (.entries _)] 1 room hroom hover
    [.datagram ⟨.entries _, 0, 0⟩ stepInput member, .tick (.entries _)]
  obtain ⟨player', hplayer', hsame⟩ := hkept 1 player hplayer
  refine ⟨by decide +kernel, room', player', hroom', hover', htime, hplayer', ?_⟩
  calc player'.moveX = player.moveX := congrArg Standing.moveX hsame
    _ = 0 := eq_of_beq hstill

end GameRoomManager

end LightNet.Game
