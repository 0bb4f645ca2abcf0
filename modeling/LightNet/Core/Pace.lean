/-
# LightNet.Core.Pace — how regular a repeating timer is.

A tick of the timers takes one reading of the clock, runs what is due by it, and puts a repeating timer
back for the interval after that reading.  So two runs of the timer are never closer than the interval;
and from the reading of one tick to that of the next not more passes than the interval, the slack of one
poll, and what the loop thread has spent outside of poll.
-/
import LightNet.Core.Reactor

namespace LightNet.Core

open LightNet.Foundation

namespace Reactor

variable {T α : Type} {slack : Nat} {r : Reactor T α}

/-! ## The timers and the clock -/

/-- The timers tick in their phase of the loop, and meanwhile the loop thread is busy. -/
structure InStep (r : Reactor T α) : Prop where
  ticking : ∀ now, r.wheel.phase.now? = some now →
    r.loop.phase = .timers ∧ r.wheel.lastTickMs = now
  clocks : r.loop.phase = .timers → r.now + r.tickBusy = r.wheel.lastTickMs + r.busy
  grows : r.tickBusy ≤ r.busy

theorem init_inStep (clock : Nat) : InStep (init clock : Reactor T α) where
  ticking now h := by cases h
  clocks h := by cases h
  grows := le_refl _

/-- A call of the timers does not begin a tick. -/
theorem timer_now {s : TimerStep} (hok : r.Enabled slack (.timer s)) {now : Nat}
    (h : (r.wheel.step s).phase.now? = some now) : r.wheel.phase.now? = some now := by
  cases s with
  | addTimer clock delay repeats => exact h
  | cancel id => exact h
  | tick now => exact hok.elim
  | run t node =>
      have hphase : r.wheel.phase = .ticking t := hok.2.1.1
      rw [hphase]
      exact h
  | skip t node => exact h
  | returns =>
      obtain ⟨t, node, hphase⟩ := hok.2.1
      simp only [TimerWheel.step, hphase, (r.wheel.afterCallback_phase t node).1] at h
      rw [hphase]
      exact h
  | endTick now => exact hok.elim

variable [DecidableEq T]

/-- What is so in the phase of the timers has been so before, unless the tick has just begun. -/
theorem timers_cases {i : ReactorStep T α} (hok : r.Enabled slack i)
    (h : (r.step i).loop.phase = .timers) :
    i = .event .eventsHandled
      ∨ r.loop.phase = .timers ∧ (r.step i).wheel.lastTickMs = r.wheel.lastTickMs
          ∧ (r.step i).tickBusy = r.tickBusy := by
  cases i with
  | elapse ms => exact .inr ⟨h, rfl, rfl⟩
  | event e =>
      cases e with
      | eventsHandled => exact .inl rfl
      | queueInLoop t task => exact .inr ⟨h, rfl, rfl⟩
      | wakeup t => exact .inr ⟨h, rfl, rfl⟩
      | handleReadWakeup => exact .inr ⟨h, rfl, rfl⟩
      | runTask =>
          obtain ⟨task, batch, hphase⟩ := hok
          have hrun : r.loop.runTask.phase = .timers := h
          rw [EventLoop.runTask, hphase] at hrun
          cases hrun
      | tasksReturn =>
          have hhead : (Reactor.head _).loop.phase = .timers := h
          unfold head at hhead
          split at hhead <;> cases hhead
      | loop _ | pollReturns | timersTicked | swap | taskReturns => cases h
  | timer s => exact .inr ⟨h, (timer_cases hok).2.2, rfl⟩
  | quit t =>
      have hphase : (r.quit t).loop.phase = .timers := h
      rw [phase_quit] at hphase
      exact .inr ⟨hphase, rfl, rfl⟩
  | signal interrupts => exact .inr ⟨h, rfl, rfl⟩

/-- In the phase of the timers other threads may take a step, and the loop thread may end its tick. -/
theorem event_timers {e : LoopEvent T α} (hok : r.Enabled slack (.event e))
    (h : r.loop.phase = .timers) :
    e = .timersTicked ∨ (r.event e).loop.phase = .timers ∧ (r.event e).wheel = r.wheel
      ∧ (r.event e).tickBusy = r.tickBusy := by
  cases e with
  | timersTicked => exact .inl rfl
  | queueInLoop t task => exact .inr ⟨h, rfl, rfl⟩
  | wakeup t => exact .inr ⟨h, rfl, rfl⟩
  | loop t => exact absurd (h.symm.trans hok.1) (by simp)
  | pollReturns => exact absurd (h.symm.trans hok) (by simp)
  | handleReadWakeup => exact absurd (h.symm.trans hok.1) (by simp)
  | eventsHandled => exact absurd (h.symm.trans hok.1.1) (by simp)
  | swap => exact absurd (h.symm.trans hok) (by simp)
  | runTask =>
      obtain ⟨task, batch, hphase⟩ := hok
      exact absurd (h.symm.trans hphase) (by simp)
  | taskReturns =>
      obtain ⟨⟨batch, hphase⟩, -⟩ := hok
      exact absurd (h.symm.trans hphase) (by simp)
  | tasksReturn => exact absurd (h.symm.trans hok) (by simp)

/-! ## Every step keeps pace -/

omit [DecidableEq T] in
/-- Between two other phases of the loop. -/
theorem InStep.quiet {r' : Reactor T α} (h : InStep r) (hwheel : r'.wheel = r.wheel)
    (hbusy : r'.busy = r.busy) (htick : r'.tickBusy = r.tickBusy) (hbefore : r.loop.phase ≠ .timers)
    (hafter : r'.loop.phase ≠ .timers) : InStep r' where
  ticking now hnow := absurd (h.ticking now (hwheel ▸ hnow)).1 hbefore
  clocks hphase := absurd hphase hafter
  grows := by
    rw [hbusy, htick]
    exact h.grows

theorem InStep.event {e : LoopEvent T α} (h : InStep r) (hok : r.Enabled slack (.event e)) :
    InStep (r.event e) := by
  cases e with
  | eventsHandled => exact ⟨fun now hnow => ⟨rfl, Option.some.inj hnow⟩, fun _ => rfl, le_refl _⟩
  | timersTicked => exact ⟨fun now hnow => (by cases hnow), fun hphase => (by cases hphase), h.grows⟩
  | queueInLoop t task => exact ⟨h.ticking, h.clocks, h.grows⟩
  | wakeup t => exact ⟨h.ticking, h.clocks, h.grows⟩
  | loop t =>
      have hphase : r.loop.phase = .outside := hok.1
      exact h.quiet rfl rfl rfl (by simp [hphase]) (fun hafter => by cases hafter)
  | pollReturns =>
      have hphase : r.loop.phase = .poll := hok
      exact h.quiet rfl rfl rfl (by simp [hphase]) (fun hafter => by cases hafter)
  | handleReadWakeup =>
      have hphase : r.loop.phase = .events := hok.1
      have hne : r.loop.phase ≠ .timers := by simp [hphase]
      exact h.quiet rfl rfl rfl hne hne
  | swap =>
      have hphase : r.loop.phase = .entering := hok
      exact h.quiet rfl rfl rfl (by simp [hphase]) (fun hafter => by cases hafter)
  | runTask =>
      obtain ⟨task, batch, hphase⟩ := hok
      refine h.quiet rfl rfl rfl (by simp [hphase]) ?_
      show r.loop.runTask.phase ≠ .timers
      simp [EventLoop.runTask, hphase]
  | taskReturns =>
      obtain ⟨⟨batch, hphase⟩, -⟩ := hok
      exact h.quiet rfl rfl rfl (by simp [hphase]) (fun hafter => by cases hafter)
  | tasksReturn =>
      have hphase : r.loop.phase = .between [] := hok
      show InStep (Reactor.head _)
      unfold head
      split <;> exact h.quiet rfl rfl rfl (by simp [hphase]) (fun hafter => by cases hafter)

theorem InStep.step {i : ReactorStep T α} (h : InStep r) (hok : r.Enabled slack i) :
    InStep (r.step i) := by
  cases i with
  | elapse ms =>
      have hgrows := h.grows
      refine ⟨h.ticking, fun hphase => ?_, ?_⟩
      · have hclocks := h.clocks hphase
        have hphase : r.loop.phase = .timers := hphase
        show r.now + ms + r.tickBusy
          = r.wheel.lastTickMs + if r.loop.phase.polls = true then r.busy else r.busy + ms
        rw [hphase, if_neg (fun hp => by cases hp)]
        omega
      · show r.tickBusy ≤ if r.loop.phase.polls = true then r.busy else r.busy + ms
        split <;> omega
  | event e => exact h.event hok
  | timer s =>
      have hlast := (timer_cases hok).2.2
      refine ⟨fun now hnow => ?_, fun hphase => ?_, h.grows⟩
      · obtain ⟨hphase, hnow⟩ := h.ticking now (timer_now hok hnow)
        exact ⟨hphase, hlast.trans hnow⟩
      · have hclocks := h.clocks hphase
        show r.now + r.tickBusy = (r.wheel.step s).lastTickMs + r.busy
        rw [hlast]
        exact hclocks
  | quit t =>
      have hphase : (r.step (.quit t)).loop.phase = r.loop.phase := r.phase_quit t
      refine ⟨?_, ?_, h.grows⟩
      · rw [hphase]
        exact h.ticking
      · rw [hphase]
        exact h.clocks
  | signal interrupts => exact ⟨h.ticking, h.clocks, h.grows⟩

/-! ## Beats -/

/-- A reading of the clock, and what `busy` was then. -/
structure Beat where
  time : Nat
  busy : Nat
  deriving DecidableEq

/-- The second beat comes after the interval, and not later than it must. -/
def Beat.Regular (slack delay : Nat) (beat next : Beat) : Prop :=
  beat.time + delay ≤ next.time ∧ next.time + beat.busy ≤ beat.time + delay + slack + next.busy

/-- Timer `id` repeats every `delay` ms, and has been set or run last at `beat`. -/
inductive Beating (slack delay id : Nat) (beat : Beat) (r : Reactor T α) : Prop where
  /-- It waits for its turn; and if the timers tick, they do so in time. -/
  | waits (node : TimerNode) (hid : node.id = id) (hrepeats : node.repeats = true)
      (hinterval : node.intervalMs = delay) (hexpires : node.expireMs = beat.time + delay)
      (howed : Owed slack (beat.time + delay) beat.busy node r)
      (hlate : r.loop.phase = .timers →
        r.wheel.lastTickMs + beat.busy ≤ beat.time + delay + r.tickBusy + slack)
  /-- Its callback runs. -/
  | runs (node : TimerNode) (hid : node.id = id) (hrepeats : node.repeats = true)
      (hinterval : node.intervalMs = delay) (hphase : r.wheel.phase = .calling beat.time node)
      (hinv : r.wheel.Inv) (hactive : node.id ∈ r.wheel.active) (hbusy : r.tickBusy = beat.busy)

variable {delay id : Nat} {beat : Beat}

omit [DecidableEq T] in
theorem Beating.allocated (h : Beating slack delay id beat r) : r.wheel.Allocated id := by
  cases h with
  | waits node hid hrepeats hinterval hexpires howed hlate =>
      rw [← hid]
      exact howed.waiting.1.nodes_allocated node (TimerWheel.mem_nodes.mpr (.inr howed.waiting.2.1))
  | runs node hid hrepeats hinterval hphase hinv hactive hbusy =>
      rw [← hid]
      exact hinv.active_allocated node.id hactive

omit [DecidableEq T] in
/-- It is not overdue. -/
theorem Beating.on_time (h : Beating slack delay id beat r) (hin : InStep r) :
    r.now + beat.busy ≤ beat.time + delay + slack + r.busy := by
  cases h with
  | waits node hid hrepeats hinterval hexpires howed hlate =>
      have hbound := howed.within.late
      omega
  | runs node hid hrepeats hinterval hphase hinv hactive hbusy =>
      obtain ⟨htimers, hlast⟩ := hin.ticking beat.time (by rw [hphase]; rfl)
      have hclocks := hin.clocks htimers
      omega

/-! ## From beat to beat -/

/-- A timer is set. -/
theorem beating_addTimer (hinv : r.wheel.Inv) (hin : InStep r)
    (hok : r.Enabled slack (.timer (.addTimer r.now delay true))) :
    Beating slack delay r.wheel.nextId ⟨r.now, r.busy⟩
      (r.step (.timer (.addTimer r.now delay true))) := by
  obtain ⟨hexpires, howed⟩ := owed_addTimer hinv hok
  refine .waits (r.wheel.newNode r.now delay true) rfl rfl rfl hexpires howed fun hphase => ?_
  have hclocks := hin.clocks hphase
  show r.wheel.lastTickMs + r.busy ≤ r.now + delay + r.tickBusy + slack
  omega

/-- The callback is called: the tick took its reading of the clock after the interval, and in time. -/
theorem Beating.run (h : Beating slack delay id beat r) (hin : InStep r) {now : Nat} {node : TimerNode}
    (hok : r.Enabled slack (.timer (.run now node))) (hid : node.id = id) :
    beat.Regular slack delay ⟨now, r.tickBusy⟩
      ∧ Beating slack delay id ⟨now, r.tickBusy⟩ (r.step (.timer (.run now node))) := by
  obtain ⟨-, hlegal⟩ := hok
  obtain ⟨hticking, ⟨hmem, -, hdue⟩, hactive⟩ := hlegal.1
  obtain ⟨htimers, hlast⟩ := hin.ticking now (by rw [hticking]; rfl)
  cases h with
  | waits other hother hrepeats hinterval hexpires howed hlate =>
      have hinv := howed.waiting.1
      obtain rfl : other = node := hinv.node_unique (TimerWheel.mem_nodes.mpr (.inr howed.waiting.2.1))
        (TimerWheel.mem_nodes.mpr (.inr hmem)) (hother.trans hid.symm)
      have hlate := hlate htimers
      refine ⟨⟨?_, ?_⟩, ?_⟩
      · rw [← hexpires]
        exact hdue
      · show now + beat.busy ≤ beat.time + delay + slack + r.tickBusy
        omega
      · exact .runs other hid hrepeats hinterval rfl (TimerWheel.step_inv hinv hlegal) hactive rfl
  | runs other hother hrepeats hinterval hphase hinv hactive hbusy =>
      rw [hticking] at hphase
      cases hphase

/-- The callback returns, and the timer waits for the interval. -/
theorem Beating.returns (hin : InStep r) {node : TimerNode} (hid : node.id = id)
    (hrepeats : node.repeats = true) (hinterval : node.intervalMs = delay)
    (hphase : r.wheel.phase = .calling beat.time node) (hinv : r.wheel.Inv)
    (hactive : node.id ∈ r.wheel.active) (hbusy : r.tickBusy = beat.busy)
    (hok : r.Enabled slack (.timer .returns)) :
    Beating slack delay id beat (r.step (.timer .returns)) := by
  have hlegal := hok.2
  have hrange : beat.time + node.intervalMs < 2 ^ 64 := hlegal.2 beat.time node hphase
  obtain ⟨htimers, hlast⟩ := hin.ticking beat.time (by rw [hphase]; rfl)
  have hclocks := hin.clocks htimers
  have hgrows := hin.grows
  have hstep : r.wheel.step .returns
      = { r.wheel with
          timers := { node with expireMs := beat.time + delay } :: r.wheel.timers
          phase := .ticking beat.time } := by
    simp only [TimerWheel.step, hphase, TimerWheel.afterCallback]
    rw [if_pos ⟨hrepeats, hactive⟩, Nat.mod_eq_of_lt hrange, hinterval]
  refine .waits { node with expireMs := beat.time + delay } hid hrepeats hinterval rfl ?_ ?_
  · refine ⟨?_, le_refl _, ?_⟩
    · refine ⟨TimerWheel.step_inv hinv hlegal, ?_, ?_⟩
      · show _ ∈ (r.wheel.step .returns).timers
        rw [hstep]
        exact List.mem_cons_self
      · show node.id ∈ (r.wheel.step .returns).active
        rw [hstep]
        exact hactive
    · have hawake : r.loop.phase.polls = false := hok.1
      refine ⟨?_, ?_, fun hp => absurd (hawake.symm.trans hp) Bool.false_ne_true, fun _ => ?_⟩
      · show beat.busy ≤ r.busy
        omega
      · show r.now + beat.busy ≤ beat.time + delay + r.busy + slack
        omega
      · show r.now + beat.busy ≤ beat.time + delay + r.busy
        omega
  · intro _
    show (r.wheel.step .returns).lastTickMs + beat.busy ≤ beat.time + delay + r.tickBusy + slack
    rw [(timer_cases hok).2.2]
    omega

/-! ## Every step keeps the beat -/

/-- The timer is neither run nor cancelled. -/
theorem Beating.step {i : ReactorStep T α} (h : Beating slack delay id beat r) (hin : InStep r)
    (hok : r.Enabled slack i) (hcancel : i ≠ .timer (.cancel id))
    (hruns : ∀ now node, i = .timer (.run now node) → node.id ≠ id) :
    Beating slack delay id beat (r.step i) := by
  cases h with
  | waits node hid hrepeats hinterval hexpires howed hlate =>
      have hleaves : Leaves node i := by
        cases i with
        | timer s =>
            refine ⟨fun hs => hcancel (by rw [hs, hid]), fun hs => ?_⟩
            obtain ⟨now, other, rfl, hother⟩ := TimerStep.runs_iff.mp hs
            exact hruns now other rfl (hother.trans hid)
        | elapse _ | event _ | quit _ | signal _ => exact trivial
      refine .waits node hid hrepeats hinterval hexpires (howed.step hok hleaves) fun hphase => ?_
      obtain rfl | ⟨htimers, hlast, htick⟩ := timers_cases hok hphase
      · have hbound := howed.within.late
        show r.now + beat.busy ≤ beat.time + delay + r.busy + slack
        omega
      · rw [hlast, htick]
        exact hlate htimers
  | runs node hid hrepeats hinterval hphase hinv hactive hbusy =>
      have htimers := (hin.ticking beat.time (by rw [hphase]; rfl)).1
      have hkeep : ∀ {r' : Reactor T α}, r'.wheel = r.wheel → r'.tickBusy = r.tickBusy →
          Beating slack delay id beat r' := fun hwheel htick =>
        .runs node hid hrepeats hinterval (hwheel ▸ hphase) (hwheel ▸ hinv) (hwheel ▸ hactive)
          (htick.trans hbusy)
      cases i with
      | elapse ms => exact hkeep rfl rfl
      | event e =>
          obtain rfl | ⟨-, hwheel, htick⟩ := event_timers hok htimers
          · have hticking : r.wheel.phase = .ticking r.wheel.lastTickMs := hok.2.1.1
            rw [hticking] at hphase
            cases hphase
          · exact hkeep hwheel htick
      | timer s =>
          have hlegal := (timer_cases hok).2.1
          have hinv' := TimerWheel.step_inv hinv hlegal
          cases s with
          | addTimer clock delay' repeats =>
              exact .runs node hid hrepeats hinterval hphase hinv' (Finset.mem_insert_of_mem hactive) hbusy
          | cancel other =>
              refine .runs node hid hrepeats hinterval hphase hinv' ?_ hbusy
              refine Finset.mem_erase_of_ne_of_mem ?_ hactive
              intro heq
              exact hcancel (by rw [← heq, hid])
          | tick now => exact hok.elim
          | run now other =>
              have hticking : r.wheel.phase = .ticking now := hlegal.1.1
              rw [hticking] at hphase
              cases hphase
          | skip now other =>
              have hticking : r.wheel.phase = .ticking now := hlegal.1.1
              rw [hticking] at hphase
              cases hphase
          | returns => exact .returns hin hid hrepeats hinterval hphase hinv hactive hbusy hok
          | endTick now => exact hok.elim
      | quit t => exact hkeep rfl rfl
      | signal interrupts => exact hkeep rfl rfl

end Reactor

end LightNet.Core
