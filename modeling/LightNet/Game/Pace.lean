/-
# LightNet.Game.Pace — when the rooms are ticked.

`start()` sets a repeating timer on the loop, `stop()` cancels it, and both may be called again and again.
The callback of the timer is `on_tick`, which ticks the rooms.  Here the server runs on its loop and its
clock, together with whatever else runs there, and the rooms are ticked regularly: not twice within an
interval, and not later than the interval, the slack of a poll and the work of the loop thread allow.
The time of a tick is the reading of the clock that `TimerWheel::tick` is given, one for all its callbacks.
-/
import LightNet.Core.Pace
import LightNet.Game.Server
import Mathlib.Data.List.Chain

namespace LightNet.Game

open LightNet.Foundation LightNet.Core LightNet.Net

/-! ## The state -/

/-- A call of `start()` that sets the timer, or a tick of the rooms. -/
structure Mark where
  isTick : Bool
  beat : Reactor.Beat
  deriving DecidableEq

/-- The game server and its loop. -/
structure HostedServer (T α F : Type) where
  server : GameServer F
  reactor : Reactor T α
  /-- The timers that have been set for `on_tick`. -/
  timerIds : List Nat := []
  /-- The history of the run, the last mark first; no step reads it. -/
  marks : List Mark := []

/-- What happens next: to the server, or to its loop. -/
inductive HostStep (T α : Type) where
  | start
  | stop
  | datagram (env : Environment) (data : Bytes) (peer : SockAddrIn)
  /-- A step of the loop, its timers and its threads. -/
  | loop (i : ReactorStep T α) (ord : IterOrder UInt32)

namespace GameServer

variable {F : Type} [FloatArith F] [FloatBits F]

/-! ## What leaves the timer alone -/

/-- The server does not set or cancel a timer. -/
structure SameTimer (srv srv' : GameServer F) : Prop where
  running : srv'.running = srv.running
  tickTimer : srv'.tickTimer = srv.tickTimer
  interval : srv'.tickIntervalMs = srv.tickIntervalMs

theorem onTick_sameTimer (srv : GameServer F) (ord : IterOrder UInt32) :
    SameTimer srv (srv.onTick ord).2 := by
  unfold onTick
  split
  · exact ⟨rfl, rfl, rfl⟩
  · exact ⟨rfl, rfl, rfl⟩

theorem onDatagram_sameTimer (srv : GameServer F) (env : Environment) (data : Bytes) (peer : SockAddrIn) :
    SameTimer srv (srv.onDatagram env data peer).2 := by
  unfold onDatagram
  split
  · exact ⟨rfl, rfl, rfl⟩
  · exact ⟨rfl, rfl, rfl⟩

end GameServer

namespace HostedServer

variable {T α F : Type} [DecidableEq T]

/-! ## The server on its loop -/

/-- A new server, on a loop that nobody has entered. -/
def init (tickIntervalMs : UInt32) (clock : Nat) : HostedServer T α F where
  server := .new tickIntervalMs
  reactor := .init clock

/-- `start()`, on the clock of the loop. -/
def start (s : HostedServer T α F) : HostedServer T α F :=
  if s.server.running then s
  else
    let (server, wheel) := s.server.start s.reactor.wheel s.reactor.now
    { s with
      server
      reactor := { s.reactor with wheel }
      timerIds := server.tickTimer :: s.timerIds
      marks := ⟨false, s.reactor.now, s.reactor.busy⟩ :: s.marks }

/-- `stop()`. -/
def stop (s : HostedServer T α F) : HostedServer T α F :=
  let (server, wheel) := s.server.stop s.reactor.wheel
  { s with server, reactor := { s.reactor with wheel } }

/-- `on_tick`, called in `tick(now)`. -/
def onTick [FloatArith F] [FloatBits F] (s : HostedServer T α F) (ord : IterOrder UInt32) (now : Nat) :
    HostedServer T α F :=
  { s with
    server := (s.server.onTick ord).2
    marks := if s.server.running then ⟨true, now, s.reactor.tickBusy⟩ :: s.marks else s.marks }

/-- A step of the loop.  The callbacks of the server's timers are calls of `on_tick`. -/
def loop [FloatArith F] [FloatBits F] (s : HostedServer T α F) (i : ReactorStep T α)
    (ord : IterOrder UInt32) : HostedServer T α F :=
  let s' := { s with reactor := s.reactor.step i }
  match i with
  | .timer (.run now node) => if node.id ∈ s.timerIds then s'.onTick ord now else s'
  | _ => s'

/-- What the step does. -/
def step [FloatArith F] [FloatBits F] (s : HostedServer T α F) : HostStep T α → HostedServer T α F
  | .start => s.start
  | .stop => s.stop
  | .datagram env data peer => { s with server := (s.server.onDatagram env data peer).2 }
  | .loop i ord => s.loop i ord

/-- The step can be taken now.  Nobody else cancels the timer. -/
def Enabled (slack : Nat) (s : HostedServer T α F) : HostStep T α → Prop
  | .start => s.server.running = false →
      s.reactor.Enabled slack (.timer (.addTimer s.reactor.now s.server.tickIntervalMs.toNat true))
  | .stop => s.server.running = true → s.reactor.Enabled slack (.timer (.cancel s.server.tickTimer))
  | .datagram _ _ _ => s.reactor.loop.phase = .events
  | .loop (.timer (.cancel id)) _ => id ∉ s.timerIds ∧ s.reactor.Enabled slack (.timer (.cancel id))
  | .loop i _ => s.reactor.Enabled slack i

instance (slack : Nat) (s : HostedServer T α F) [DecidableEq α] :
    (i : HostStep T α) → Decidable (s.Enabled slack i)
  | .start => inferInstanceAs (Decidable (_ → _))
  | .stop => inferInstanceAs (Decidable (_ → _))
  | .datagram _ _ _ => inferInstanceAs (Decidable (_ = _))
  | .loop (.timer (.cancel _)) _ => inferInstanceAs (Decidable (_ ∧ _))
  | .loop (.timer (.addTimer clock delay repeats)) _ =>
      inferInstanceAs (Decidable (s.reactor.Enabled slack (.timer (.addTimer clock delay repeats))))
  | .loop (.timer (.tick now)) _ => inferInstanceAs (Decidable (s.reactor.Enabled slack (.timer (.tick now))))
  | .loop (.timer (.run now node)) _ =>
      inferInstanceAs (Decidable (s.reactor.Enabled slack (.timer (.run now node))))
  | .loop (.timer (.skip now node)) _ =>
      inferInstanceAs (Decidable (s.reactor.Enabled slack (.timer (.skip now node))))
  | .loop (.timer .returns) _ => inferInstanceAs (Decidable (s.reactor.Enabled slack (.timer .returns)))
  | .loop (.timer (.endTick now)) _ =>
      inferInstanceAs (Decidable (s.reactor.Enabled slack (.timer (.endTick now))))
  | .loop (.elapse ms) _ => inferInstanceAs (Decidable (s.reactor.Enabled slack (.elapse ms)))
  | .loop (.event e) _ => inferInstanceAs (Decidable (s.reactor.Enabled slack (.event e)))
  | .loop (.quit t) _ => inferInstanceAs (Decidable (s.reactor.Enabled slack (.quit t)))
  | .loop (.signal interrupts) _ =>
      inferInstanceAs (Decidable (s.reactor.Enabled slack (.signal interrupts)))

/-! ## The invariant -/

/-- A tick of the rooms comes regularly behind the mark before it. -/
def Follows (slack delay : Nat) (mark last : Mark) : Prop :=
  mark.isTick = true → last.beat.Regular slack delay mark.beat

/-- The ticks so far are regular, and the timer of the server is the one it has set last. -/
structure Inv (slack delay : Nat) (s : HostedServer T α F) : Prop where
  wheel : s.reactor.wheel.Inv
  inStep : s.reactor.InStep
  interval : s.server.tickIntervalMs.toNat = delay
  regular : s.marks.IsChain (Follows slack delay)
  /-- Only the timer of a server that runs is active. -/
  cancelled : ∀ id ∈ s.timerIds, s.server.running = true ∧ id = s.server.tickTimer
    ∨ TimerWheel.Cancelled id s.reactor.wheel
  running : s.server.running = true → s.server.tickTimer ∈ s.timerIds ∧ ∃ mark rest,
    s.marks = mark :: rest ∧ s.reactor.Beating slack delay s.server.tickTimer mark.beat

omit [DecidableEq T] in
theorem init_inv (slack : Nat) (tickIntervalMs : UInt32) (clock : Nat) :
    (init tickIntervalMs clock : HostedServer T α F).Inv slack tickIntervalMs.toNat where
  wheel := TimerWheel.init_inv clock
  inStep := Reactor.init_inStep clock
  interval := rfl
  regular := List.isChain_nil
  cancelled _ hid := absurd hid List.not_mem_nil
  running hruns := absurd hruns Bool.false_ne_true

variable {slack delay : Nat} {s : HostedServer T α F}

/-- The timers that have been cancelled stay so. -/
theorem cancelled_step {id : Nat} {i : ReactorStep T α} (h : TimerWheel.Cancelled id s.reactor.wheel)
    (hok : s.reactor.Enabled slack i) : TimerWheel.Cancelled id (s.reactor.step i).wheel :=
  Reactor.wheel_step (fun _ _ h hlegal => TimerWheel.cancelled_step h hlegal) h hok

/-! ## Every step keeps it -/

theorem Inv.start (h : s.Inv slack delay) (hok : s.Enabled slack .start) : s.start.Inv slack delay := by
  cases hrunning : s.server.running with
  | true =>
      have hstart : s.start = s := if_pos hrunning
      rwa [hstart]
  | false =>
      have hset := hok hrunning
      obtain rfl := h.interval
      have hstart : s.start =
          { s with
            server := { s.server with running := true, tickTimer := s.reactor.wheel.nextId }
            reactor := s.reactor.step
              (.timer (.addTimer s.reactor.now s.server.tickIntervalMs.toNat true))
            timerIds := s.reactor.wheel.nextId :: s.timerIds
            marks := ⟨false, s.reactor.now, s.reactor.busy⟩ :: s.marks } := by
        unfold HostedServer.start GameServer.start
        rw [hrunning]
        rfl
      have hbeating := Reactor.beating_addTimer h.wheel h.inStep hset
      rw [hstart]
      refine ⟨Reactor.wheel_inv h.wheel hset, h.inStep.step hset, h.interval, ?_, ?_, ?_⟩
      · refine List.isChain_cons.mpr ⟨fun last _ htick => ?_, h.regular⟩
        exact absurd htick Bool.false_ne_true
      · intro id hid
        obtain rfl | hold := List.mem_cons.mp hid
        · exact .inl ⟨rfl, rfl⟩
        · obtain ⟨hruns, -⟩ | hcancelled := h.cancelled id hold
          · exact absurd (hrunning.symm.trans hruns) Bool.false_ne_true
          · exact .inr (cancelled_step hcancelled hset)
      · intro _
        exact ⟨List.mem_cons_self, _, _, rfl, hbeating⟩

theorem Inv.stop (h : s.Inv slack delay) (hok : s.Enabled slack .stop) : s.stop.Inv slack delay := by
  cases hrunning : s.server.running with
  | false =>
      have hstop : s.stop = s := by
        unfold HostedServer.stop GameServer.stop
        rw [hrunning]
        rfl
      rwa [hstop]
  | true =>
      have hcancel := hok hrunning
      obtain ⟨-, mark, rest, -, hbeating⟩ := h.running hrunning
      have hpos : s.server.tickTimer ≠ 0 := Nat.pos_iff_ne_zero.mp hbeating.allocated.1
      have hstop : s.stop =
          { s with
            server := { s.server with running := false, tickTimer := 0 }
            reactor := s.reactor.step (.timer (.cancel s.server.tickTimer)) } := by
        unfold HostedServer.stop GameServer.stop
        rw [hrunning, if_pos hpos]
        rfl
      rw [hstop]
      refine ⟨Reactor.wheel_inv h.wheel hcancel, h.inStep.step hcancel, h.interval, h.regular, ?_, ?_⟩
      · intro id hid
        right
        obtain ⟨-, rfl⟩ | hcancelled := h.cancelled id hid
        · exact ⟨TimerWheel.step_inv h.wheel hcancel.2, hbeating.allocated, Finset.notMem_erase _ _⟩
        · exact cancelled_step hcancelled hcancel
      · intro hruns
        exact absurd hruns Bool.false_ne_true

omit [DecidableEq T] in
/-- The server is told something that does not concern its timer. -/
theorem Inv.sameTimer (h : s.Inv slack delay) {server : GameServer F}
    (hsame : s.server.SameTimer server) : Inv slack delay { s with server } where
  wheel := h.wheel
  inStep := h.inStep
  interval := by
    rw [← h.interval]
    exact congrArg UInt32.toNat hsame.interval
  regular := h.regular
  cancelled id hid := by
    show server.running = true ∧ id = server.tickTimer ∨ _
    rw [hsame.running, hsame.tickTimer]
    exact h.cancelled id hid
  running hruns := by
    have hruns : server.running = true := hruns
    rw [hsame.running] at hruns
    show server.tickTimer ∈ s.timerIds ∧ _
    rw [hsame.tickTimer]
    exact h.running hruns

omit [DecidableEq T] in
theorem Enabled.loop {i : ReactorStep T α} {ord : IterOrder UInt32} (hok : s.Enabled slack (.loop i ord)) :
    s.reactor.Enabled slack i ∧ ∀ id ∈ s.timerIds, i ≠ .timer (.cancel id) := by
  cases i with
  | timer t =>
      cases t with
      | cancel other =>
          refine ⟨hok.2, ?_⟩
          rintro id hid ⟨⟩
          exact hok.1 hid
      | addTimer _ _ _ | tick _ | run _ _ | skip _ _ | returns | endTick _ =>
          exact ⟨hok, fun _ _ => by simp⟩
  | elapse _ | event _ | quit _ | signal _ => exact ⟨hok, fun _ _ => by simp⟩

/-- No callback of the server's timer is called. -/
theorem Inv.other (h : s.Inv slack delay) {i : ReactorStep T α} (hok : s.reactor.Enabled slack i)
    (hcancel : ∀ id ∈ s.timerIds, i ≠ .timer (.cancel id))
    (hruns : ∀ now node, i = .timer (.run now node) → node.id ∉ s.timerIds) :
    Inv slack delay { s with reactor := s.reactor.step i } where
  wheel := Reactor.wheel_inv h.wheel hok
  inStep := h.inStep.step hok
  interval := h.interval
  regular := h.regular
  cancelled id hid := (h.cancelled id hid).imp_right fun hcancelled => cancelled_step hcancelled hok
  running hrunning := by
    obtain ⟨hmem, mark, rest, hmarks, hbeating⟩ := h.running hrunning
    refine ⟨hmem, mark, rest, hmarks, hbeating.step h.inStep hok (hcancel _ hmem) ?_⟩
    rintro now node rfl hid
    exact hruns now node rfl (hid ▸ hmem)

omit [DecidableEq T] in
/-- A timer of the server whose callback is called is the one that is set, and the server runs. -/
theorem Inv.runs (h : s.Inv slack delay) {now : Nat} {node : TimerNode}
    (hok : s.reactor.Enabled slack (.timer (.run now node))) (hmem : node.id ∈ s.timerIds) :
    s.server.running = true ∧ node.id = s.server.tickTimer := by
  obtain hruns | hcancelled := h.cancelled node.id hmem
  · exact hruns
  · exact absurd hok.2.1.2.2 hcancelled.2.2

/-- The rooms are ticked. -/
theorem Inv.tick (h : s.Inv slack delay) {now : Nat} {node : TimerNode}
    (hok : s.reactor.Enabled slack (.timer (.run now node))) (hmem : node.id ∈ s.timerIds) :
    Inv slack delay
      { s with
        reactor := s.reactor.step (.timer (.run now node))
        marks := ⟨true, now, s.reactor.tickBusy⟩ :: s.marks } := by
  obtain ⟨hrunning, hid⟩ := h.runs hok hmem
  obtain ⟨hset, mark, rest, hmarks, hbeating⟩ := h.running hrunning
  obtain ⟨hregular, hnext⟩ := hbeating.run h.inStep hok hid
  refine ⟨Reactor.wheel_inv h.wheel hok, h.inStep.step hok, h.interval, ?_, ?_, ?_⟩
  · refine List.isChain_cons.mpr ⟨fun last hlast _ => ?_, h.regular⟩
    rw [hmarks, List.head?_cons, Option.mem_some_iff] at hlast
    rwa [← hlast]
  · exact fun id hid => (h.cancelled id hid).imp_right fun hcancelled => cancelled_step hcancelled hok
  · exact fun _ => ⟨hset, _, _, rfl, hnext⟩

variable [FloatArith F] [FloatBits F]

theorem Inv.loop (h : s.Inv slack delay) {i : ReactorStep T α} {ord : IterOrder UInt32}
    (hok : s.Enabled slack (.loop i ord)) : (s.loop i ord).Inv slack delay := by
  obtain ⟨hstep, hcancel⟩ := hok.loop
  unfold HostedServer.loop
  split
  · rename_i now node
    dsimp only
    split
    · rename_i hmem
      have htick := (h.tick hstep hmem).sameTimer (s.server.onTick_sameTimer ord)
      rw [HostedServer.onTick, if_pos (h.runs hstep hmem).1]
      exact htick
    · rename_i hother
      refine h.other hstep hcancel ?_
      rintro now' node' ⟨⟩
      exact hother
  · rename_i hnone
    exact h.other hstep hcancel fun now node hi => (hnone now node hi).elim

theorem Inv.step {i : HostStep T α} (h : s.Inv slack delay) (hok : s.Enabled slack i) :
    (s.step i).Inv slack delay := by
  cases i with
  | start => exact h.start hok
  | stop => exact h.stop hok
  | datagram env data peer => exact h.sameTimer (s.server.onDatagram_sameTimer env data peer)
  | loop i ord => exact h.loop hok

/-! ## The contract -/

/-- **The rooms are ticked regularly.** In every run a tick of the rooms comes, by the reading of the
clock it runs under, at least the interval after the tick or the `start()` before it, and not later than
the interval, the slack of one poll and the time allow that the loop thread has spent outside of poll;
and no tick of a server that runs is overdue by more. A timer that the server has set runs only while the
server does and has not set another one. -/
theorem ticks_keep_pace (slack clock : Nat) (tickIntervalMs : UInt32) (steps : List (HostStep T α))
    (hok : Admissible step (Enabled slack) (init tickIntervalMs clock : HostedServer T α F) steps) :
    let s : HostedServer T α F := run step (init tickIntervalMs clock) steps
    let delay := tickIntervalMs.toNat
    s.marks.IsChain (Follows slack delay)
      ∧ (s.server.running = true → ∃ mark rest, s.marks = mark :: rest
          ∧ s.reactor.now + mark.beat.busy ≤ mark.beat.time + delay + slack + s.reactor.busy)
      ∧ (∀ now node, s.reactor.Enabled slack (.timer (.run now node)) → node.id ∈ s.timerIds →
          s.server.running = true ∧ node.id = s.server.tickTimer) := by
  intro s delay
  have hstep : ∀ (s : HostedServer T α F) i, s.Inv slack delay → s.Enabled slack i →
      (s.step i).Inv slack delay := fun _ _ h hok => h.step hok
  have hinv : s.Inv slack delay := run_invariant hstep (init_inv slack tickIntervalMs clock) hok
  refine ⟨hinv.regular, fun hrunning => ?_, fun now node hrun hmem => hinv.runs hrun hmem⟩
  obtain ⟨-, mark, rest, hmarks, hbeating⟩ := hinv.running hrunning
  exact ⟨mark, rest, hmarks, hbeating.on_time hinv.inStep⟩

/-- The rooms are ticked every 33 ms; poll returns on time, and then two ms late. -/
theorem ticks_keep_pace_sample :
    let loop (i : ReactorStep Nat Nat) : HostStep Nat Nat := .loop i (.entries UInt32)
    let steps : List (HostStep Nat Nat) :=
      [.start, loop (.event (.loop 0)), loop (.elapse 33), loop (.event .pollReturns),
        loop (.event .eventsHandled), loop (.timer (.run 133 ⟨1, 133, 33, true⟩)), loop (.elapse 5),
        loop (.timer .returns), loop (.event .timersTicked), loop (.event .swap),
        loop (.event .tasksReturn), loop (.elapse 30), loop (.event .pollReturns),
        loop (.event .eventsHandled), loop (.timer (.run 168 ⟨1, 166, 33, true⟩))]
    let s : HostedServer Nat Nat Binary32 := run step (init 33 100) steps
    Admissible step (Enabled 2) (init 33 100 : HostedServer Nat Nat Binary32) steps
      ∧ s.marks.map (fun mark => mark.beat.time) = [168, 133, 100]
      ∧ s.marks.IsChain (Follows 2 33) := by
  intro loop steps s
  have hok : Admissible step (Enabled 2) (init 33 100 : HostedServer Nat Nat Binary32) steps := by
    decide
  exact ⟨hok, by decide, (ticks_keep_pace 2 100 33 steps hok).1⟩

end HostedServer

end LightNet.Game
