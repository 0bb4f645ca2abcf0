/-
# LightNet.Game.Server — the game server of `game/game_server.cpp`.

A datagram that decodes goes to the room manager, and a repeating timer of the loop ticks the rooms.
Nothing else reaches the manager, so that what holds of it after any calls holds in the server.  The
interval of the timer is the argument of the constructor, taken as it is.
-/
import LightNet.Core.TickLoop
import LightNet.Game.PeerIndex

namespace LightNet.Game

open LightNet.Foundation LightNet.Core LightNet.Net

/-- `lightnet::GameServer`. -/
structure GameServer (F : Type) where
  rooms : GameRoomManager F
  tickIntervalMs : UInt32
  tickTimer : Nat := 0
  running : Bool := false

namespace GameServer

variable {F : Type}

/-- `GameServer(loop, ip, port, tick_interval_ms)`. -/
def new (tickIntervalMs : UInt32) : GameServer F where
  rooms := .new tickIntervalMs
  tickIntervalMs := tickIntervalMs

/-- `start()`, with the timers of the loop and the reading of the clock in `add_timer`. -/
def start (srv : GameServer F) (wheel : TimerWheel) (clock : Nat) : GameServer F × TimerWheel :=
  if srv.running then (srv, wheel)
  else
    ({ srv with running := true, tickTimer := wheel.nextId },
      wheel.addTimer clock srv.tickIntervalMs.toNat true)

/-- `stop()`: the timer is cancelled. -/
def stop (srv : GameServer F) (wheel : TimerWheel) : GameServer F × TimerWheel :=
  if !srv.running then (srv, wheel)
  else if srv.tickTimer ≠ 0 then
    ({ srv with running := false, tickTimer := 0 }, wheel.cancel srv.tickTimer)
  else ({ srv with running := false }, wheel)

/-- `on_datagram`: what is sent, and the server after it. -/
def onDatagram [FloatArith F] [FloatBits F] (srv : GameServer F) (env : Environment) (data : Bytes)
    (peer : SockAddrIn) : List SendTo × GameServer F :=
  match GameCodec.decode data with
  | none => ([], srv)
  | some packet =>
      let (sent, rooms) := srv.rooms.handlePacket env packet peer
      (sent, { srv with rooms })

/-- `on_tick`, the callback of the timer. -/
def onTick [FloatArith F] [FloatBits F] (srv : GameServer F) (ord : IterOrder UInt32) :
    List SendTo × GameServer F :=
  if !srv.running then ([], srv)
  else
    let (sent, rooms) := srv.rooms.tickAll ord
    (sent, { srv with rooms })

/-! ## The manager in the server -/

/-- What happens to a server. -/
inductive Event
  | start (clock : Nat)
  | stop
  | datagram (env : Environment) (data : Bytes) (peer : SockAddrIn)
  | timer (ord : IterOrder UInt32)

section

variable [FloatArith F] [FloatBits F]

/-- The server and the timers of its loop after an event. -/
def step (s : GameServer F × TimerWheel) : Event → GameServer F × TimerWheel
  | .start clock => s.1.start s.2 clock
  | .stop => s.1.stop s.2
  | .datagram env data peer => ((s.1.onDatagram env data peer).2, s.2)
  | .timer ord => ((s.1.onTick ord).2, s.2)

/-- **One event** is at most one call of the manager. -/
theorem rooms_step (s : GameServer F × TimerWheel) (e : Event) :
    ∃ calls, (step s e).1.rooms = run GameRoomManager.after s.1.rooms calls := by
  cases e with
  | start clock =>
      refine ⟨[], ?_⟩
      simp only [step, start]
      split
      · rfl
      · rfl
  | stop =>
      refine ⟨[], ?_⟩
      simp only [step, stop]
      split
      · rfl
      split
      · rfl
      · rfl
  | datagram env data peer =>
      simp only [step, onDatagram]
      split
      · exact ⟨[], rfl⟩
      · rename_i packet hpacket
        exact ⟨[.handlePacket env packet peer], rfl⟩
  | timer ord =>
      simp only [step, onTick]
      split
      · exact ⟨[], rfl⟩
      · exact ⟨[.tickAll ord], rfl⟩

/-- **Every run of the server is a run of its manager.** -/
theorem rooms_run (tickIntervalMs : UInt32) (wheel : TimerWheel) (events : List Event) :
    ∃ calls, (run step (new tickIntervalMs, wheel) events : GameServer F × TimerWheel).1.rooms
      = GameRoomManager.reached tickIntervalMs calls := by
  have hstep : ∀ (s : GameServer F × TimerWheel) (e : Event),
      (∃ calls, s.1.rooms = GameRoomManager.reached tickIntervalMs calls) →
      ∃ calls, (step s e).1.rooms = GameRoomManager.reached tickIntervalMs calls := by
    rintro s e ⟨calls, hrooms⟩
    obtain ⟨calls', hcalls⟩ := rooms_step s e
    refine ⟨calls ++ calls', ?_⟩
    rw [hcalls, hrooms, GameRoomManager.reached, GameRoomManager.reached, run_append]
  exact run_invariant_of_step hstep events ⟨[], rfl⟩

end

/-! ## The timer of the server -/

variable {srv : GameServer F} {c clock now : Nat}

theorem start_wheel (hrunning : srv.running = false) :
    (srv.start (.init c) clock).2
      = (TimerWheel.init c).addTimer clock srv.tickIntervalMs.toNat true := by
  rw [start, if_neg (by rw [hrunning]; exact Bool.false_ne_true)]

/-- The only timer of a loop on which a server has been started. -/
theorem comesBack_start (hrunning : srv.running = false) {node : TimerNode} :
    (srv.start (.init c) clock).2.ComesBack now node
      ↔ node = (TimerWheel.init c).newNode clock srv.tickIntervalMs.toNat true
        ∧ (clock + srv.tickIntervalMs.toNat) % 2 ^ 64 ≤ now
        ∧ (srv.tickIntervalMs.toNat = 0 ∨ 2 ^ 64 ≤ now + srv.tickIntervalMs.toNat) := by
  rw [start_wheel hrunning]
  constructor
  · rintro ⟨hmem, hdue, -, -, hback⟩
    obtain rfl := List.mem_singleton.mp hmem
    exact ⟨rfl, hdue, hback⟩
  · rintro ⟨rfl, hdue, hback⟩
    exact ⟨List.mem_cons_self, hdue, rfl, Finset.mem_insert_self _ _, hback⟩

/-- **When the tick of a server ends.** As soon as the timer of `start` is due, the loop of `tick` ends
exactly if the server has an interval, and the interval does not wrap around. -/
theorem start_tickEnds_iff (hrunning : srv.running = false)
    (hdue : (clock + srv.tickIntervalMs.toNat) % 2 ^ 64 ≤ now) :
    (srv.start (.init c) clock).2.TickEnds now
      ↔ srv.tickIntervalMs.toNat ≠ 0 ∧ now + srv.tickIntervalMs.toNat < 2 ^ 64 := by
  constructor
  · intro hends
    by_contra hcond
    have hback : srv.tickIntervalMs.toNat = 0 ∨ 2 ^ 64 ≤ now + srv.tickIntervalMs.toNat := by omega
    have hcomes := (comesBack_start (c := c) hrunning).mpr ⟨rfl, hdue, hback⟩
    refine TimerWheel.not_tickEnds_of_spins (TimerWheel.tickSpins_of_back ?_ ?_ hcomes) hends
    · rw [start_wheel hrunning]
      exact List.nodup_singleton _
    · intro node hnode
      rw [start_wheel hrunning] at hnode
      obtain rfl := List.mem_singleton.mp hnode
      have hlt := srv.tickIntervalMs.toNat_lt
      show srv.tickIntervalMs.toNat < 2 ^ 64
      omega
  · rintro ⟨hzero, hfits⟩
    refine TimerWheel.tickEnds_of_none_back fun node hcomes => ?_
    obtain ⟨-, -, hback⟩ := (comesBack_start hrunning).mp hcomes
    omega

/-- A server with an interval of zero: its first tick does not end. -/
theorem tick_hangs : ¬((new 0 : GameServer Binary32).start (.init 5) 5).2.TickEnds 5 := by
  intro hends
  exact ((start_tickEnds_iff rfl (by decide)).mp hends).1 rfl

end GameServer

end LightNet.Game
