/-
# LightNet.Core.Reactor — the loop, its timers and the clock.

`loop()` sleeps in poll until the next timer is due, a second at most; then come the callbacks of the
channels, one tick of the timers and one batch of tasks.  Here the threads of `EventLoop` and the timers
of `TimerWheel` run on one clock.  Poll returns at most `slack` ms after it should, and everything else
takes as long as it likes: `busy` is the time that has passed outside of poll.  Between two calls of
`loop()` its thread pushes no task and does not quit.

What the sleep must not do is to keep anybody waiting.  A timer, a task and a call of `quit` are all
served as soon as the loop thread has the time, up to the slack of one poll.
-/
import LightNet.Core.EventLoop
import LightNet.Core.TimerContract

namespace LightNet.Core

open LightNet.Foundation

/-- `next_timeout_ms()`, with the reading of the clock. -/
def TimerWheel.nextTimeoutMs (w : TimerWheel) (now : Nat) : Nat :=
  match (w.timers.map TimerNode.expireMs).min? with
  | none => 1000
  | some expire => if expire ≤ now then 0 else min (expire - now) 1000

theorem TimerWheel.nextTimeoutMs_le (w : TimerWheel) (now : Nat) : w.nextTimeoutMs now ≤ 1000 := by
  unfold nextTimeoutMs
  split
  · exact le_refl _
  · split <;> omega

/-- Poll does not sleep past a timer that is in the heap. -/
theorem TimerWheel.nextTimeoutMs_le_expire {w : TimerWheel} {node : TimerNode} (h : node ∈ w.timers)
    (now : Nat) : now + w.nextTimeoutMs now ≤ max now node.expireMs := by
  have hmem : node.expireMs ∈ w.timers.map TimerNode.expireMs := List.mem_map_of_mem h
  unfold nextTimeoutMs
  split
  · rename_i hnone
    rw [List.min?_eq_none_iff] at hnone
    rw [hnone] at hmem
    exact absurd hmem List.not_mem_nil
  · rename_i expire hsome
    have hle : expire ≤ node.expireMs := (List.min?_eq_some_iff.mp hsome).2 _ hmem
    split <;> omega

/-- The loop thread is in poll. -/
def Phase.polls {α : Type} : Phase α → Bool
  | .poll => true
  | _ => false

theorem Phase.not_polls_of_runsUserCode {α : Type} {p : Phase α} (h : p.runsUserCode = true) :
    p.polls = false := by
  cases p <;> first | rfl | cases h

theorem Phase.missesSwap_of_polls {α : Type} {p : Phase α} (h : p.polls = true) :
    p.missesSwap = true := by
  cases p <;> first | rfl | cases h

/-- The timers have had their turn. -/
def Phase.afterTick {α : Type} : Phase α → Bool
  | .outside | .entering | .between _ | .inTask _ => true
  | _ => false

/-! ## The state -/

/-- The loop, its timers, and `quit_`. -/
structure Reactor (T α : Type) where
  loop : EventLoop T α
  wheel : TimerWheel
  quitting : Bool := false
  /-- The clock, in ms. -/
  now : Nat
  /-- When the poll that is running should return. -/
  wake : Nat := 0
  /-- The time that has passed outside of poll, and what it was when the last tick of the timers
  began. -/
  busy : Nat := 0
  tickBusy : Nat := 0

/-- What happens next: on the loop, on its wheel, to its flag, or to the clock. -/
inductive ReactorStep (T α : Type) where
  /-- Time passes. -/
  | elapse (ms : Nat)
  | event (e : LoopEvent T α)
  /-- A call of the timers, or a step inside `tick`. -/
  | timer (s : TimerStep)
  /-- Thread `t` calls `quit()`. -/
  | quit (t : T)
  /-- A signal handler calls `quit()` on the loop thread.  If the thread is already asleep, the call of
  poll is interrupted. -/
  | signal (interrupts : Bool)

namespace Reactor

variable {T α : Type}

/-! ## What happens -/

/-- A loop that nobody has entered, at this reading of the clock. -/
def init (clock : Nat) : Reactor T α where
  loop := .init
  wheel := .init clock
  now := clock

/-- The clock runs on.  Outside of poll the loop thread has spent the time. -/
def elapse (r : Reactor T α) (ms : Nat) : Reactor T α :=
  { r with now := r.now + ms, busy := if r.loop.phase.polls then r.busy else r.busy + ms }

/-- Poll is called; it returns at once if the eventfd is readable. -/
def enterPoll (r : Reactor T α) : Reactor T α :=
  { r with
    wake := if 0 < r.loop.wakeupCount then r.now else r.now + r.wheel.nextTimeoutMs r.now }

/-- `while (!quit_)`, behind a batch of tasks. -/
def head (r : Reactor T α) : Reactor T α :=
  if r.quitting then { r with loop := { r.loop with phase := .outside } } else r.enterPoll

/-- `quit()` on thread `t`, up to the write to the eventfd that another thread makes. -/
def quit [DecidableEq T] (r : Reactor T α) (t : T) : Reactor T α :=
  { r with
    quitting := true
    loop :=
      if r.loop.isInLoopThread t then r.loop
      else { r.loop with waking := Function.update r.loop.waking t true } }

/-- A step of the threads, with what it does to the rest. -/
def event [DecidableEq T] (r : Reactor T α) (e : LoopEvent T α) : Reactor T α :=
  let r := { r with loop := r.loop.step e }
  match e with
  | .loop _ => { r with quitting := false }.enterPoll
  | .wakeup _ => { r with wake := min r.wake r.now }
  | .eventsHandled => { r with wheel := r.wheel.step (.tick r.now), tickBusy := r.busy }
  | .timersTicked => { r with wheel := r.wheel.step (.endTick r.wheel.lastTickMs) }
  | .tasksReturn => r.head
  | _ => r

/-- What the step does. -/
def step [DecidableEq T] (r : Reactor T α) : ReactorStep T α → Reactor T α
  | .elapse ms => r.elapse ms
  | .event e => r.event e
  | .timer s => { r with wheel := r.wheel.step s }
  | .quit t => r.quit t
  | .signal interrupts =>
      { r with quitting := true, wake := if interrupts then min r.wake r.now else r.wake }

/-- The step can be taken now.  Timers belong to the loop thread, which is not in poll then. -/
def Enabled (slack : Nat) (r : Reactor T α) : ReactorStep T α → Prop
  | .elapse ms => r.loop.phase.polls = true → r.now + ms ≤ r.wake + slack
  | .event .eventsHandled => r.loop.Enabled .eventsHandled ∧ r.wheel.Legal (.tick r.now)
  | .event .timersTicked =>
      r.loop.Enabled .timersTicked ∧ r.wheel.Legal (.endTick r.wheel.lastTickMs)
  | .event e => r.loop.Enabled e
  | .timer (.addTimer clock delay repeats) =>
      r.loop.phase.polls = false ∧ clock = r.now ∧ r.wheel.Legal (.addTimer clock delay repeats)
  | .timer (.tick _) | .timer (.endTick _) => False
  | .timer s => r.loop.phase.polls = false ∧ r.wheel.Legal s
  | .quit t => r.loop.waking t = false ∧ (r.loop.threadId = some t → r.loop.phase.runsUserCode = true)
  | .signal _ => r.loop.threadId ≠ none

/-! ## Limits -/

variable {slack : Nat} {r r' : Reactor T α} {limit busy₀ : Nat} {punctual punctual' : Prop}

theorem enterPoll_wake_le {node : TimerNode} (h : node ∈ r.wheel.timers) :
    r.enterPoll.wake ≤ max r.now node.expireMs := by
  unfold enterPoll
  dsimp only
  split
  · exact le_max_left _ _
  · exact r.wheel.nextTimeoutMs_le_expire h r.now

/-- It is not later than `limit`, not counting what the loop thread has spent outside of poll since
`busy₀`.  The clock may be over that by the slack of poll; where things are punctual it is not. -/
structure Within (slack limit busy₀ : Nat) (punctual : Prop) (r : Reactor T α) : Prop where
  grows : busy₀ ≤ r.busy
  late : r.now + busy₀ ≤ limit + r.busy + slack
  asleep : r.loop.phase.polls = true → r.wake + busy₀ ≤ limit + r.busy
  exact : punctual → r.now + busy₀ ≤ limit + r.busy

/-- No time passes, and no poll begins. -/
theorem Within.stay (h : Within slack limit busy₀ punctual r) (hnow : r'.now = r.now)
    (hbusy : r'.busy = r.busy) (hwake : r'.wake ≤ r.wake)
    (hpolls : r'.loop.phase.polls = true → r.loop.phase.polls = true) (hpunctual : punctual' → punctual) :
    Within slack limit busy₀ punctual' r' where
  grows := hbusy ▸ h.grows
  late := by
    rw [hnow, hbusy]
    exact h.late
  asleep hp := by
    have hasleep := h.asleep (hpolls hp)
    omega
  exact hp := by
    rw [hnow, hbusy]
    exact h.exact (hpunctual hp)

/-- Time passes: in poll the sleep is bounded, and elsewhere the loop thread is busy. -/
theorem Within.elapse (h : Within slack limit busy₀ punctual r) {ms : Nat}
    (hok : r.Enabled slack (.elapse ms)) (hpunctual : punctual → r.loop.phase.polls = false) :
    Within slack limit busy₀ punctual (r.elapse ms) := by
  have hgrows := h.grows
  have hlate := h.late
  cases hphase : r.loop.phase.polls with
  | true =>
      have hasleep := h.asleep hphase
      have hslack := hok hphase
      constructor <;> simp only [Reactor.elapse, hphase, if_true]
      · exact hgrows
      · omega
      · exact fun _ => hasleep
      · intro hp
        exact absurd (hphase.symm.trans (hpunctual hp)) (by decide)
  | false =>
      constructor <;> simp only [Reactor.elapse, hphase, Bool.false_eq_true, if_false]
      · omega
      · omega
      · exact fun hp => hp.elim
      · intro hp
        have hexact := h.exact hp
        omega

/-- A poll begins, in time. -/
theorem Within.enterPoll (hgrows : busy₀ ≤ r.busy) (hexact : r.now + busy₀ ≤ limit + r.busy)
    (hwake : r'.enterPoll.wake + busy₀ ≤ limit + r.busy) (hnow : r'.now = r.now)
    (hbusy : r'.busy = r.busy) : Within slack limit busy₀ punctual r'.enterPoll := by
  rw [← hnow, ← hbusy] at hexact
  rw [← hbusy] at hgrows hwake
  exact ⟨hgrows, Nat.le_add_right_of_le hexact, fun _ => hwake, fun _ => hexact⟩

/-- From here on. -/
theorem Within.start (hlimit : r.now ≤ limit) (hwake : r.loop.phase.polls = true → r.wake ≤ limit) :
    Within slack limit r.busy punctual r where
  grows := le_refl _
  late := by omega
  asleep hp := Nat.add_le_add_right (hwake hp) _
  exact _ := by omega

/-! ## Timers -/

/-- The timers have had their turn, or have it in a tick that began before the timer was due. -/
def PastTurn (node : TimerNode) (r : Reactor T α) : Prop :=
  r.loop.phase.afterTick = true ∨ r.loop.phase = .timers ∧ r.wheel.lastTickMs < node.expireMs

/-- A timer waits for its turn. -/
structure Owed (slack limit busy₀ : Nat) (node : TimerNode) (r : Reactor T α) : Prop where
  waiting : TimerWheel.Waiting node r.wheel
  expires : node.expireMs ≤ limit
  within : Within slack limit busy₀ (PastTurn node r) r

/-- The step neither runs nor cancels the timer. -/
def Leaves (node : TimerNode) : ReactorStep T α → Prop
  | .timer s => s ≠ .cancel node.id ∧ s.runs node.id ≠ true
  | _ => True

/-- Poll is called when the timers have had their turn. -/
theorem Owed.enterPoll {node : TimerNode} (h : Owed slack limit busy₀ node r) (hturn : PastTurn node r)
    (hwheel : r'.wheel = r.wheel) (hnow : r'.now = r.now) (hbusy : r'.busy = r.busy) :
    Owed slack limit busy₀ node r'.enterPoll where
  waiting := hwheel ▸ h.waiting
  expires := h.expires
  within := by
    have hexact := h.within.exact hturn
    refine Within.enterPoll h.within.grows hexact ?_ hnow hbusy
    have hwake := enterPoll_wake_le (hwheel ▸ h.waiting.2.1)
    have hexpires := h.expires
    have hgrows := h.within.grows
    omega

/-- A step in which neither the timers nor the time are touched. -/
theorem Owed.stay {node : TimerNode} (h : Owed slack limit busy₀ node r) (hwheel : r'.wheel = r.wheel)
    (hnow : r'.now = r.now) (hbusy : r'.busy = r.busy) (hwake : r'.wake ≤ r.wake)
    (hpolls : r'.loop.phase.polls = true → r.loop.phase.polls = true)
    (hturn : PastTurn node r' → PastTurn node r) : Owed slack limit busy₀ node r' where
  waiting := hwheel ▸ h.waiting
  expires := h.expires
  within := h.within.stay hnow hbusy hwake hpolls hturn

theorem Owed.tick {node : TimerNode} (h : Owed slack limit busy₀ node r) (hlegal : r.wheel.Legal (.tick r.now)) :
    Owed slack limit busy₀ node { r with loop := { r.loop with phase := .timers }
                                         wheel := r.wheel.step (.tick r.now)
                                         tickBusy := r.busy } where
  waiting := TimerWheel.waiting_step h.waiting ⟨hlegal, by simp, by simp [TimerStep.runs]⟩
  expires := h.expires
  within := by
    have hexpires := h.expires
    have hgrows := h.within.grows
    refine ⟨hgrows, h.within.late, fun hp => absurd hp Bool.false_ne_true, ?_⟩
    rintro (hafter | ⟨-, hbefore⟩)
    · exact absurd hafter Bool.false_ne_true
    · have hbefore : r.now < node.expireMs := hbefore
      show r.now + busy₀ ≤ limit + r.busy
      omega

/-- A tick that ends has left behind only what was not due. -/
theorem Owed.endTick {node : TimerNode} (h : Owed slack limit busy₀ node r)
    (hphase : r.loop.phase = .timers) (hlegal : r.wheel.Legal (.endTick r.wheel.lastTickMs)) :
    Owed slack limit busy₀ node
      { r with loop := { r.loop with phase := .entering, callingPendingTasks := true }
               wheel := r.wheel.step (.endTick r.wheel.lastTickMs) } where
  waiting := TimerWheel.waiting_step h.waiting ⟨hlegal, by simp, by simp [TimerStep.runs]⟩
  expires := h.expires
  within := by
    have hbefore : r.wheel.lastTickMs < node.expireMs := hlegal.1.2 node h.waiting.2.1
    exact h.within.stay rfl rfl (le_refl _) (fun hp => absurd hp Bool.false_ne_true)
      fun _ => .inr ⟨hphase, hbefore⟩

/-! ## What a step does to a timer -/

/-- What a call of the timers needs, and what it leaves. -/
theorem timer_cases {s : TimerStep} (hok : r.Enabled slack (.timer s)) :
    r.loop.phase.polls = false ∧ r.wheel.Legal s ∧ (r.wheel.step s).lastTickMs = r.wheel.lastTickMs := by
  cases s with
  | addTimer clock delay repeats => exact ⟨hok.1, hok.2.2, rfl⟩
  | cancel id => exact ⟨hok.1, hok.2, rfl⟩
  | tick now => exact hok.elim
  | run now node => exact ⟨hok.1, hok.2, rfl⟩
  | skip now node => exact ⟨hok.1, hok.2, rfl⟩
  | returns =>
      obtain ⟨now, node, hphase⟩ := hok.2.1
      refine ⟨hok.1, hok.2, ?_⟩
      simp only [TimerWheel.step, hphase, TimerWheel.afterCallback]
      split <;> rfl
  | endTick now => exact hok.elim

variable [DecidableEq T]

theorem Owed.event {node : TimerNode} (h : Owed slack limit busy₀ node r) {e : LoopEvent T α}
    (hok : r.Enabled slack (.event e)) : Owed slack limit busy₀ node (r.event e) := by
  have hno : ∀ {p : Phase α}, p.polls = false → p.polls = true → r.loop.phase.polls = true :=
    fun hfalse htrue => absurd (hfalse.symm.trans htrue) Bool.false_ne_true
  cases e with
  | loop t =>
      have hphase : r.loop.phase = .outside := hok.1
      exact h.enterPoll (.inl (by rw [hphase]; rfl)) rfl rfl rfl
  | queueInLoop t task => exact h.stay rfl rfl rfl (le_refl _) id id
  | wakeup t => exact h.stay rfl rfl rfl (min_le_left _ _) id id
  | pollReturns =>
      refine h.stay rfl rfl rfl (le_refl _) (hno rfl) ?_
      rintro (hafter | ⟨htimers, -⟩)
      · cases hafter
      · cases htimers
  | handleReadWakeup => exact h.stay rfl rfl rfl (le_refl _) id id
  | eventsHandled => exact h.tick hok.2
  | timersTicked => exact h.endTick hok.1.1 hok.2
  | swap =>
      have hphase : r.loop.phase = .entering := hok
      exact h.stay rfl rfl rfl (le_refl _) (hno rfl) fun _ => .inl (by rw [hphase]; rfl)
  | runTask =>
      obtain ⟨task, batch, hphase⟩ := hok
      have hafter : (r.loop.step .runTask).phase = .inTask batch := by
        simp only [EventLoop.step, EventLoop.runTask, hphase]
      refine h.stay rfl rfl rfl (le_refl _) (hno ?_) fun _ => .inl (by rw [hphase]; rfl)
      show (r.loop.step .runTask).phase.polls = false
      rw [hafter]
      rfl
  | taskReturns =>
      obtain ⟨⟨batch, hphase⟩, -⟩ := hok
      exact h.stay rfl rfl rfl (le_refl _) (hno rfl) fun _ => .inl (by rw [hphase]; rfl)
  | tasksReturn =>
      have hturn : PastTurn node r := .inl (by rw [show r.loop.phase = .between [] from hok]; rfl)
      show Owed slack limit busy₀ node (Reactor.head _)
      unfold head
      split
      · exact h.stay rfl rfl rfl (le_refl _) (hno rfl) fun _ => hturn
      · exact h.enterPoll hturn rfl rfl rfl

theorem phase_quit (r : Reactor T α) (t : T) : (r.quit t).loop.phase = r.loop.phase := by
  unfold quit
  dsimp only
  split <;> rfl

theorem Owed.step {node : TimerNode} (h : Owed slack limit busy₀ node r) {i : ReactorStep T α}
    (hok : r.Enabled slack i) (hleaves : Leaves node i) : Owed slack limit busy₀ node (r.step i) := by
  cases i with
  | elapse ms =>
      refine ⟨h.waiting, h.expires, h.within.elapse hok ?_⟩
      rintro (hafter | ⟨htimers, -⟩)
      · cases hphase : r.loop.phase <;> rw [hphase] at hafter <;> first | rfl | cases hafter
      · rw [htimers]
        rfl
  | event e => exact h.event hok
  | timer s =>
      obtain ⟨-, hlegal, hlast⟩ := timer_cases hok
      refine ⟨TimerWheel.waiting_step h.waiting ⟨hlegal, hleaves⟩, h.expires,
        h.within.stay rfl rfl (le_refl _) id ?_⟩
      rintro (hafter | ⟨htimers, hbefore⟩)
      · exact .inl hafter
      · have hbefore : (r.wheel.step s).lastTickMs < node.expireMs := hbefore
        exact .inr ⟨htimers, hlast ▸ hbefore⟩
  | quit t =>
      have hloop : (r.step (.quit t)).loop.phase = r.loop.phase := r.phase_quit t
      refine h.stay rfl rfl rfl (le_refl _) ?_ ?_
      · intro hp
        rwa [← hloop]
      · intro hturn
        unfold PastTurn at hturn
        rw [hloop] at hturn
        exact hturn
  | signal interrupts =>
      refine h.stay rfl rfl rfl ?_ id id
      show (if interrupts then min r.wake r.now else r.wake) ≤ r.wake
      split
      · exact min_le_left _ _
      · exact le_refl _

/-! ## Timers that are set and run -/

/-- A timer is set. -/
theorem owed_addTimer {delay : Nat} {repeats : Bool} (h : r.wheel.Inv)
    (hok : r.Enabled slack (.timer (.addTimer r.now delay repeats))) :
    (r.wheel.newNode r.now delay repeats).expireMs = r.now + delay
      ∧ Owed slack (r.now + delay) r.busy (r.wheel.newNode r.now delay repeats)
          (r.step (.timer (.addTimer r.now delay repeats))) := by
  obtain ⟨hpolls, -, hlegal⟩ := hok
  have hexpires : (r.wheel.newNode r.now delay repeats).expireMs = r.now + delay :=
    Nat.mod_eq_of_lt hlegal.2.2.1
  have hwaiting : TimerWheel.Waiting (r.wheel.newNode r.now delay repeats)
      (r.wheel.step (.addTimer r.now delay repeats)) :=
    ⟨TimerWheel.step_inv h hlegal, List.mem_cons_self, Finset.mem_insert_self ..⟩
  have hstart : Within slack (r.now + delay) r.busy True r :=
    Within.start (Nat.le_add_right _ _) fun hp => absurd (hpolls.symm.trans hp) Bool.false_ne_true
  exact ⟨hexpires, hwaiting, le_of_eq hexpires,
    hstart.stay rfl rfl (le_refl _) id fun _ => trivial⟩

theorem owed_run {node : TimerNode} (h : Owed slack limit busy₀ node r) {steps : List (ReactorStep T α)}
    (hok : Admissible step (Enabled slack) r steps) (hleaves : ∀ i ∈ steps, Leaves node i) :
    Owed slack limit busy₀ node (run step r steps) := by
  have hstep : ∀ (r : Reactor T α) i, Owed slack limit busy₀ node r →
      r.Enabled slack i ∧ Leaves node i → Owed slack limit busy₀ node (r.step i) :=
    fun _ _ h hok => h.step hok.1 hok.2
  exact run_invariant hstep h (hok.and_forall hleaves)

/-- The timers do what timers do. -/
theorem wheel_step {P : TimerWheel → Prop} (hstep : ∀ w s, P w → w.Legal s → P (w.step s))
    {i : ReactorStep T α} (h : P r.wheel) (hok : r.Enabled slack i) : P (r.step i).wheel := by
  cases i with
  | elapse ms => exact h
  | event e =>
      cases e with
      | eventsHandled => exact hstep _ _ h hok.2
      | timersTicked => exact hstep _ _ h hok.2
      | tasksReturn =>
          show P (Reactor.head _).wheel
          unfold head
          split <;> exact h
      | loop _ | queueInLoop _ _ | wakeup _ | pollReturns | handleReadWakeup | swap | runTask
      | taskReturns => exact h
  | timer s => exact hstep _ _ h (timer_cases hok).2.1
  | quit t => exact h
  | signal interrupts => exact h

theorem wheel_inv {i : ReactorStep T α} (h : r.wheel.Inv) (hok : r.Enabled slack i) :
    (r.step i).wheel.Inv :=
  wheel_step (fun _ _ h hlegal => TimerWheel.step_inv h hlegal) h hok

/-! ## Wakeups -/

omit [DecidableEq T] in
theorem Enabled.event {e : LoopEvent T α} (hok : r.Enabled slack (.event e)) : r.loop.Enabled e := by
  cases e with
  | eventsHandled => exact hok.1
  | timersTicked => exact hok.1
  | loop _ => exact hok
  | queueInLoop _ _ => exact hok
  | wakeup _ => exact hok
  | pollReturns => exact hok
  | handleReadWakeup => exact hok
  | swap => exact hok
  | runTask => exact hok
  | taskReturns => exact hok
  | tasksReturn => exact hok

/-- The threads take their step, and the loop ends behind a batch if it has been told to. -/
theorem loop_event (r : Reactor T α) (e : LoopEvent T α) :
    (r.event e).loop = r.loop.step e
      ∨ e = .tasksReturn ∧ (r.event e).loop = { r.loop.step e with phase := .outside } := by
  cases e with
  | tasksReturn =>
      show (Reactor.head _).loop = _ ∨ _ ∧ (Reactor.head _).loop = _
      unfold head
      split
      · exact .inr ⟨rfl, rfl⟩
      · exact .inl rfl
  | loop _ => exact .inl rfl
  | queueInLoop _ _ => exact .inl rfl
  | wakeup _ => exact .inl rfl
  | pollReturns => exact .inl rfl
  | handleReadWakeup => exact .inl rfl
  | eventsHandled => exact .inl rfl
  | timersTicked => exact .inl rfl
  | swap => exact .inl rfl
  | runTask => exact .inl rfl
  | taskReturns => exact .inl rfl

/-- A thread is about to write. -/
theorem quit_inv (h : r.loop.Inv) (t : T) : (r.quit t).loop.Inv := by
  unfold quit
  dsimp only
  split
  · exact h
  · rename_i hother
    refine ⟨h.conserved, h.calling_eq, fun hquiet => ?_, fun _ _ => .inr ⟨t, Function.update_self ..⟩⟩
    have hwritten := h.loopThread_written hquiet
    cases hthread : r.loop.threadId with
    | none => simp only [EventLoop.loopThreadWaking, Option.any_none]
    | some me =>
        have hne : me ≠ t := by
          rintro rfl
          exact hother (decide_eq_true hthread)
        simp only [EventLoop.loopThreadWaking, hthread, Option.any_some] at hwritten ⊢
        rw [Function.update_of_ne hne, hwritten]

/-- The threads do what threads do. -/
theorem loop_inv {i : ReactorStep T α} (h : r.loop.Inv) (hok : r.Enabled slack i) :
    (r.step i).loop.Inv := by
  cases i with
  | elapse ms => exact h
  | event e =>
      have hnext := EventLoop.step_inv h hok.event
      show (r.event e).loop.Inv
      obtain hloop | ⟨rfl, hloop⟩ := r.loop_event e
      · rw [hloop]
        exact hnext
      · have hmove : EventLoop.Inv { r.loop.step .tasksReturn with
            phase := .outside, callingPendingTasks := false } :=
          hnext.move rfl rfl hnext.loopThread_written fun _ => rfl
        rw [hloop]
        exact hmove
  | timer s => exact h
  | quit t => exact quit_inv h t
  | signal interrupts => exact h

omit [DecidableEq T] in
theorem runTask_wakeup (l : EventLoop T α) :
    l.runTask.wakeupCount = l.wakeupCount ∧ l.runTask.waking = l.waking := by
  unfold EventLoop.runTask
  split <;> exact ⟨rfl, rfl⟩

/-- Only a read of the eventfd, among the callbacks of the channels, takes a wakeup back. -/
theorem wakeupCount_step {i : ReactorStep T α} (hok : r.Enabled slack i)
    (hphase : r.loop.phase ≠ .events) (h : 0 < r.loop.wakeupCount) :
    0 < (r.step i).loop.wakeupCount := by
  cases i with
  | elapse ms => exact h
  | event e =>
      cases e with
      | wakeup t =>
          show 0 < if r.loop.wakeupCount < EventLoop.kEventfdMax then _ else _
          split <;> omega
      | handleReadWakeup => exact absurd hok.1 hphase
      | runTask =>
          show 0 < r.loop.runTask.wakeupCount
          rw [(runTask_wakeup r.loop).1]
          exact h
      | tasksReturn =>
          show 0 < (Reactor.head _).loop.wakeupCount
          unfold head
          split <;> exact h
      | loop _ | queueInLoop _ _ | pollReturns | eventsHandled | timersTicked | swap | taskReturns =>
          exact h
  | timer s => exact h
  | quit t =>
      show 0 < (r.quit t).loop.wakeupCount
      unfold quit
      dsimp only
      split <;> exact h
  | signal interrupts => exact h

/-- A thread that is about to write is so until it has. -/
theorem waking_step (i : ReactorStep T α) {t : T} (h : r.loop.waking t = true) :
    0 < (r.step i).loop.wakeupCount ∨ (r.step i).loop.waking t = true := by
  have hset : ∀ u : T, Function.update r.loop.waking u true t = true := by
    intro u
    by_cases heq : t = u
    · rw [heq, Function.update_self]
    · rw [Function.update_of_ne heq, h]
  cases i with
  | elapse ms => exact .inr h
  | event e =>
      cases e with
      | queueInLoop u task =>
          right
          show (if !r.loop.isInLoopThread u || r.loop.callingPendingTasks then
            Function.update r.loop.waking u true else r.loop.waking) t = true
          split
          · exact hset u
          · exact h
      | wakeup u =>
          left
          have hmax : 0 < EventLoop.kEventfdMax := by decide
          show 0 < if r.loop.wakeupCount < EventLoop.kEventfdMax then _ else _
          split <;> omega
      | runTask =>
          right
          show r.loop.runTask.waking t = true
          rw [(runTask_wakeup r.loop).2]
          exact h
      | tasksReturn =>
          right
          show (Reactor.head _).loop.waking t = true
          unfold head
          split <;> exact h
      | loop _ | pollReturns | handleReadWakeup | eventsHandled | timersTicked | swap | taskReturns =>
          exact .inr h
  | timer s => exact .inr h
  | quit u =>
      right
      show (r.quit u).loop.waking t = true
      unfold quit
      dsimp only
      split
      · exact h
      · exact hset u
  | signal interrupts => exact .inr h

/-! ## How long the loop sleeps -/

/-- Poll is to return at once if the eventfd is readable, before any timer is due, and in a second at
most. -/
structure Sleeps (r : Reactor T α) : Prop where
  prompt : r.loop.phase.polls = true → 0 < r.loop.wakeupCount → r.wake ≤ r.now
  due : r.loop.phase.polls = true → ∀ node ∈ r.wheel.timers, r.wake ≤ max r.now node.expireMs
  bounded : r.loop.phase.polls = true → r.wake ≤ r.now + 1000

omit [DecidableEq T] in
theorem Sleeps.awake (hphase : r.loop.phase.polls = false) : Sleeps r where
  prompt hp := absurd (hphase.symm.trans hp) Bool.false_ne_true
  due hp := absurd (hphase.symm.trans hp) Bool.false_ne_true
  bounded hp := absurd (hphase.symm.trans hp) Bool.false_ne_true

omit [DecidableEq T] in
theorem Sleeps.stay (h : Sleeps r) (hphase : r'.loop.phase.polls = true → r.loop.phase.polls = true)
    (hcount : r'.loop.wakeupCount = r.loop.wakeupCount) (hwheel : r'.wheel = r.wheel)
    (hwake : r'.wake ≤ r.wake) (hnow : r.now ≤ r'.now) : Sleeps r' where
  prompt hp hc := by
    have hprompt := h.prompt (hphase hp) (hcount ▸ hc)
    omega
  due hp node hnode := by
    have hdue := h.due (hphase hp) node (hwheel ▸ hnode)
    omega
  bounded hp := by
    have hbounded := h.bounded (hphase hp)
    omega

omit [DecidableEq T] in
theorem sleeps_enterPoll (r : Reactor T α) : Sleeps r.enterPoll where
  prompt _ hc := by
    have hc : 0 < r.loop.wakeupCount := hc
    show (if 0 < r.loop.wakeupCount then r.now else r.now + r.wheel.nextTimeoutMs r.now) ≤ r.now
    rw [if_pos hc]
  due _ _ := enterPoll_wake_le
  bounded _ := by
    have hle := r.wheel.nextTimeoutMs_le r.now
    show (if 0 < r.loop.wakeupCount then r.now else r.now + r.wheel.nextTimeoutMs r.now) ≤ r.now + 1000
    split <;> omega

theorem sleeps_step {i : ReactorStep T α} (h : Sleeps r) (hok : r.Enabled slack i) : Sleeps (r.step i) := by
  cases i with
  | elapse ms => exact h.stay id rfl rfl (le_refl _) (Nat.le_add_right _ _)
  | event e =>
      cases e with
      | loop t => exact sleeps_enterPoll _
      | queueInLoop t task => exact h.stay id rfl rfl (le_refl _) (le_refl _)
      | wakeup t =>
          exact ⟨fun _ _ => min_le_right _ _, fun hp node hnode => (min_le_left _ _).trans (h.due hp node hnode),
            fun hp => (min_le_left _ _).trans (h.bounded hp)⟩
      | pollReturns => exact .awake rfl
      | handleReadWakeup =>
          have hphase : r.loop.phase = .events := hok.1
          refine .awake ?_
          show r.loop.phase.polls = false
          rw [hphase]
          rfl
      | eventsHandled => exact .awake rfl
      | timersTicked => exact .awake rfl
      | swap => exact .awake rfl
      | runTask =>
          obtain ⟨task, batch, hphase⟩ := hok
          refine .awake ?_
          show (r.loop.runTask).phase.polls = false
          rw [EventLoop.runTask, hphase]
          rfl
      | taskReturns => exact .awake rfl
      | tasksReturn =>
          show Sleeps (Reactor.head _)
          unfold head
          split
          · exact .awake rfl
          · exact sleeps_enterPoll _
  | timer s => exact .awake (timer_cases hok).1
  | quit t =>
      have hphase := r.phase_quit t
      refine h.stay ?_ ?_ rfl (le_refl _) (le_refl _)
      · intro hp
        rwa [← hphase]
      · show (r.quit t).loop.wakeupCount = r.loop.wakeupCount
        unfold quit
        dsimp only
        split <;> rfl
  | signal interrupts =>
      refine h.stay id rfl rfl ?_ (le_refl _)
      show (if interrupts then min r.wake r.now else r.wake) ≤ r.wake
      split
      · exact min_le_left _ _
      · exact le_refl _

/-! ## Being heard -/

/-- A thread has been heard, or is about to be, when the loop thread is somewhere in `phases`. -/
def Heard (phases : Phase α → Bool) (pending : Prop) (r : Reactor T α) : Prop :=
  phases r.loop.phase = true → 0 < r.loop.wakeupCount ∨ pending

/-- Nobody but the callbacks of the channels makes a thread unheard. -/
theorem Heard.step {phases : Phase α → Bool} {pending pending' : Prop} {i : ReactorStep T α}
    (h : Heard phases pending r) (hok : r.Enabled slack i) (hevents : phases .events = false)
    (hphase : phases (r.step i).loop.phase = true → phases r.loop.phase = true)
    (hpending : pending → 0 < (r.step i).loop.wakeupCount ∨ pending') :
    Heard phases pending' (r.step i) := by
  intro hp
  have hbefore := hphase hp
  obtain hcount | hwaits := h hbefore
  · refine .inl (wakeupCount_step hok ?_ hcount)
    intro hreads
    rw [hreads] at hbefore
    exact absurd (hevents.symm.trans hbefore) Bool.false_ne_true
  · exact hpending hwaits

/-- Only a swap brings the loop thread past its batch, and from poll it goes on to the callbacks. -/
theorem missesSwap_step {i : ReactorStep T α} (hok : r.Enabled slack i) (hswap : i ≠ .event .swap)
    (h : (r.step i).loop.phase.missesSwap = true) :
    r.loop.phase.missesSwap = true
      ∧ ((r.step i).loop.phase.polls = false → r.loop.phase.polls = false) := by
  cases i with
  | elapse ms => exact ⟨h, id⟩
  | event e =>
      cases e with
      | loop t =>
          rw [show r.loop.phase = .outside from hok.1]
          exact ⟨rfl, fun _ => rfl⟩
      | queueInLoop t task => exact ⟨h, id⟩
      | wakeup t => exact ⟨h, id⟩
      | pollReturns => exact absurd h Bool.false_ne_true
      | handleReadWakeup => exact ⟨h, id⟩
      | eventsHandled => exact absurd h Bool.false_ne_true
      | timersTicked => exact absurd h Bool.false_ne_true
      | swap => exact absurd rfl hswap
      | runTask =>
          obtain ⟨task, batch, hphase⟩ := hok
          rw [hphase]
          exact ⟨rfl, fun _ => rfl⟩
      | taskReturns =>
          obtain ⟨⟨batch, hphase⟩, -⟩ := hok
          rw [hphase]
          exact ⟨rfl, fun _ => rfl⟩
      | tasksReturn =>
          rw [show r.loop.phase = .between [] from hok]
          exact ⟨rfl, fun _ => rfl⟩
  | timer s => exact ⟨h, id⟩
  | quit t =>
      have hphase : (r.step (.quit t)).loop.phase = r.loop.phase := r.phase_quit t
      rw [hphase] at h ⊢
      exact ⟨h, id⟩
  | signal interrupts => exact ⟨h, id⟩

/-- The loop thread goes to sleep behind a batch, if nobody has told it to quit, or in a call of
`loop()`. -/
theorem sleep_cases {i : ReactorStep T α} (hok : r.Enabled slack i) :
    (∃ ms, i = .elapse ms)
      ∨ (r.step i).now = r.now ∧ (r.step i).busy = r.busy ∧ (r.step i).wake ≤ r.wake
        ∧ ((r.step i).loop.phase.polls = true → r.loop.phase.polls = true)
      ∨ ((∃ t, i = .event (.loop t)) ∨ r.quitting = false) ∧ r.loop.phase.missesSwap = true
        ∧ r.loop.phase.polls = false ∧ r.loop.phase.batch = []
        ∧ ∃ r' : Reactor T α, r.step i = r'.enterPoll ∧ r'.now = r.now ∧ r'.busy = r.busy
            ∧ r'.loop.wakeupCount = r.loop.wakeupCount := by
  have hawake : ∀ {p : Phase α}, p.polls = false → p.polls = true → r.loop.phase.polls = true :=
    fun hfalse htrue => absurd (hfalse.symm.trans htrue) Bool.false_ne_true
  cases i with
  | elapse ms => exact .inl ⟨ms, rfl⟩
  | event e =>
      cases e with
      | loop t =>
          refine .inr (.inr ⟨.inl ⟨t, rfl⟩, ?_, ?_, ?_, _, rfl, rfl, rfl, rfl⟩)
          all_goals
            rw [show r.loop.phase = .outside from hok.1]
            rfl
      | wakeup t => exact .inr (.inl ⟨rfl, rfl, min_le_left _ _, id⟩)
      | runTask =>
          obtain ⟨task, batch, hphase⟩ := hok
          refine .inr (.inl ⟨rfl, rfl, le_refl _, hawake ?_⟩)
          show r.loop.runTask.phase.polls = false
          rw [EventLoop.runTask, hphase]
          rfl
      | tasksReturn =>
          cases hquit : r.quitting with
          | true =>
              have hstep : r.step (.event .tasksReturn)
                  = { r with loop := { r.loop with phase := .outside, callingPendingTasks := false } } := by
                show Reactor.head _ = _
                rw [head]
                exact if_pos hquit
              rw [hstep]
              exact .inr (.inl ⟨rfl, rfl, le_refl _, hawake rfl⟩)
          | false =>
              have hstep : r.step (.event .tasksReturn)
                  = enterPoll { r with loop := r.loop.step .tasksReturn } := by
                show Reactor.head _ = _
                rw [head]
                exact if_neg (Bool.not_eq_true _ ▸ hquit)
              refine .inr (.inr ⟨.inr rfl, ?_, ?_, ?_, _, hstep, rfl, rfl, rfl⟩)
              all_goals
                rw [show r.loop.phase = .between [] from hok]
                rfl
      | queueInLoop _ _ | handleReadWakeup => exact .inr (.inl ⟨rfl, rfl, le_refl _, id⟩)
      | pollReturns | eventsHandled | timersTicked | swap | taskReturns =>
          exact .inr (.inl ⟨rfl, rfl, le_refl _, hawake rfl⟩)
  | timer s => exact .inr (.inl ⟨rfl, rfl, le_refl _, id⟩)
  | quit t =>
      refine .inr (.inl ⟨rfl, rfl, le_refl _, fun hp => ?_⟩)
      rwa [← r.phase_quit t]
  | signal interrupts =>
      refine .inr (.inl ⟨rfl, rfl, ?_, id⟩)
      show (if interrupts then min r.wake r.now else r.wake) ≤ r.wake
      split
      · exact min_le_left _ _
      · exact le_refl _

/-! ## Tasks -/

/-- The tasks that wait keep the loop thread from sleeping. -/
structure Attended (slack limit busy₀ : Nat) (r : Reactor T α) : Prop where
  heard : Heard Phase.missesSwap False r
  within : Within slack limit busy₀
    (r.loop.phase.missesSwap = true ∧ r.loop.phase.polls = false) r

theorem Attended.step {i : ReactorStep T α} (h : Attended slack limit busy₀ r)
    (hok : r.Enabled slack i) (hswap : i ≠ .event .swap) : Attended slack limit busy₀ (r.step i) where
  heard := h.heard.step hok rfl (fun hp => (missesSwap_step hok hswap hp).1) False.elim
  within := by
    obtain ⟨ms, rfl⟩ | ⟨hnow, hbusy, hwake, hpolls⟩
        | ⟨-, hmiss, hpolls, -, r', hstep, hnow, hbusy, hcount⟩ := sleep_cases hok
    · exact h.within.elapse hok And.right
    · refine h.within.stay hnow hbusy hwake hpolls ?_
      rintro ⟨hmiss, hawake⟩
      have hbefore := missesSwap_step hok hswap hmiss
      exact ⟨hbefore.1, hbefore.2 hawake⟩
    · have hexact := h.within.exact ⟨hmiss, hpolls⟩
      have hreadable := (h.heard hmiss).resolve_right id
      rw [hstep]
      refine Within.enterPoll h.within.grows hexact ?_ hnow hbusy
      have hwake : r'.enterPoll.wake = r'.now := if_pos (hcount ▸ hreadable)
      rw [hwake, hnow]
      exact hexact

/-- The step is not the swap that takes the next batch. -/
theorem attended_run (h : Attended slack limit busy₀ r) {steps : List (ReactorStep T α)}
    (hok : Admissible Reactor.step (Enabled slack) r steps) (hswap : ∀ i ∈ steps, i ≠ .event .swap) :
    Attended slack limit busy₀ (run Reactor.step r steps) := by
  have hstep : ∀ (r : Reactor T α) i, Attended slack limit busy₀ r →
      r.Enabled slack i ∧ i ≠ .event .swap → Attended slack limit busy₀ (r.step i) :=
    fun _ _ h hok => h.step hok.1 hok.2
  exact run_invariant hstep h (hok.and_forall hswap)

/-! ## Quitting -/

/-- The loop has been told to quit, and it is not in poll unless it was `asleep` then. -/
structure Leaving (slack limit busy₀ : Nat) (asleep : Prop) (r : Reactor T α) : Prop where
  quitting : r.quitting = true
  within : Within slack limit busy₀ False r
  still : r.loop.phase.polls = true → asleep

/-- Nothing but another call of `loop()` takes it back. -/
theorem quitting_step {i : ReactorStep T α} (h : r.quitting = true)
    (hloop : ∀ t, i ≠ .event (.loop t)) : (r.step i).quitting = true := by
  cases i with
  | elapse ms => exact h
  | event e =>
      cases e with
      | loop t => exact absurd rfl (hloop t)
      | tasksReturn =>
          show (Reactor.head _).quitting = true
          unfold head
          split <;> exact h
      | queueInLoop _ _ | wakeup _ | pollReturns | handleReadWakeup | eventsHandled | timersTicked
      | swap | runTask | taskReturns => exact h
  | timer s => exact h
  | quit t => rfl
  | signal interrupts => rfl

theorem Leaving.step {asleep : Prop} {i : ReactorStep T α} (h : Leaving slack limit busy₀ asleep r)
    (hok : r.Enabled slack i) (hloop : ∀ t, i ≠ .event (.loop t)) :
    Leaving slack limit busy₀ asleep (r.step i) := by
  have hquitting := quitting_step h.quitting hloop
  obtain ⟨ms, rfl⟩ | ⟨hnow, hbusy, hwake, hpolls⟩ | ⟨⟨t, rfl⟩ | hquit, -⟩ := sleep_cases hok
  · exact ⟨hquitting, h.within.elapse hok False.elim, h.still⟩
  · exact ⟨hquitting, h.within.stay hnow hbusy hwake hpolls id, h.still ∘ hpolls⟩
  · exact absurd rfl (hloop t)
  · exact absurd (hquit.symm.trans h.quitting) Bool.false_ne_true

theorem leaving_run {asleep : Prop} (h : Leaving slack limit busy₀ asleep r)
    {steps : List (ReactorStep T α)} (hok : Admissible step (Enabled slack) r steps)
    (hloop : ∀ i ∈ steps, ∀ t, i ≠ .event (.loop t)) :
    Leaving slack limit busy₀ asleep (run step r steps) := by
  have hstep : ∀ (r : Reactor T α) i, Leaving slack limit busy₀ asleep r →
      r.Enabled slack i ∧ (∀ t, i ≠ .event (.loop t)) → Leaving slack limit busy₀ asleep (r.step i) :=
    fun _ _ h hok => h.step hok.1 hok.2
  exact run_invariant hstep h (hok.and_forall hloop)

/-! ## Runs -/

/-- What holds of the loop, the timers and the sleep in every run. -/
structure Inv (r : Reactor T α) : Prop where
  loop : r.loop.Inv
  wheel : r.wheel.Inv
  sleeps : Sleeps r

omit [DecidableEq T] in
theorem init_inv (clock : Nat) : (init clock : Reactor T α).Inv :=
  ⟨EventLoop.init_inv, TimerWheel.init_inv clock, .awake rfl⟩

theorem Inv.step {i : ReactorStep T α} (h : r.Inv) (hok : r.Enabled slack i) : (r.step i).Inv :=
  ⟨loop_inv h.loop hok, wheel_inv h.wheel hok, sleeps_step h.sleeps hok⟩

theorem run_inv {clock : Nat} {steps : List (ReactorStep T α)}
    (hok : Admissible step (Enabled slack) (init clock) steps) :
    (run step (init clock : Reactor T α) steps).Inv := by
  have hstep : ∀ (r : Reactor T α) i, r.Inv → r.Enabled slack i → (r.step i).Inv :=
    fun _ _ h hok => h.step hok
  exact run_invariant hstep (init_inv clock) hok

/-! ## Nobody waits -/

theorem timer_on_time {node : TimerNode} {steps : List (ReactorStep T α)} (h : r.Inv)
    (hnode : node ∈ r.wheel.timers) (hactive : node.id ∈ r.wheel.active)
    (hok : Admissible step (Enabled slack) r steps) (hleaves : ∀ i ∈ steps, Leaves node i) :
    (run step r steps).now
      ≤ max r.now node.expireMs + (slack + ((run step r steps).busy - r.busy)) := by
  have hstart : Owed slack (max r.now node.expireMs) r.busy node r :=
    ⟨⟨h.wheel, hnode, hactive⟩, le_max_right _ _,
      Within.start (le_max_left _ _) fun hp => h.sleeps.due hp node hnode⟩
  have hend := owed_run hstart hok hleaves
  have hgrows := hend.within.grows
  have hlate := hend.within.late
  omega

theorem task_on_time {steps : List (ReactorStep T α)} (h : r.Inv)
    (hheard : Heard Phase.missesSwap False r) (hok : Admissible step (Enabled slack) r steps)
    (hswap : ∀ i ∈ steps, i ≠ .event .swap) :
    (run step r steps).now ≤ r.now + (slack + ((run step r steps).busy - r.busy)) := by
  have hstart : Attended slack r.now r.busy r := by
    refine ⟨hheard, Within.start (le_refl _) fun hp => h.sleeps.prompt hp ?_⟩
    exact (hheard (Phase.missesSwap_of_polls hp)).resolve_right id
  have hend := attended_run hstart hok hswap
  have hgrows := hend.within.grows
  have hlate := hend.within.late
  omega

/-- The call of poll that may be running ends within `wait`, and there is no other. -/
theorem quit_on_time {steps : List (ReactorStep T α)} {wait : Nat} (hquit : r.quitting = true)
    (hwake : r.loop.phase.polls = true → r.wake ≤ r.now + wait)
    (hok : Admissible step (Enabled slack) r steps)
    (hloop : ∀ i ∈ steps, ∀ u, i ≠ .event (.loop u)) :
    (run step r steps).now ≤ r.now + wait + (slack + ((run step r steps).busy - r.busy))
      ∧ ((run step r steps).loop.phase.polls = true → r.loop.phase.polls = true) := by
  have hstart : Leaving slack (r.now + wait) r.busy (r.loop.phase.polls = true) r :=
    ⟨hquit, Within.start (Nat.le_add_right _ _) hwake, id⟩
  have hend := leaving_run hstart hok hloop
  have hgrows := hend.within.grows
  have hlate := hend.within.late
  refine ⟨?_, hend.still⟩
  omega

/-! ## Calls that return -/

/-- A thread that pushes has been heard when its call returns, until the next batch is taken. -/
theorem heard_queueInLoop {t : T} {task : α} {steps : List (ReactorStep T α)} (h : r.loop.Inv)
    (hok : Admissible step (Enabled slack) r (.event (.queueInLoop t task) :: steps))
    (hswap : ∀ i ∈ steps, i ≠ .event .swap) :
    Heard Phase.missesSwap
      ((run step r (.event (.queueInLoop t task) :: steps)).loop.waking t = true)
      (run step r (.event (.queueInLoop t task) :: steps)) := by
  have hpush : r.loop.Enabled (.queueInLoop t task) := hok.1
  have hstart : Heard Phase.missesSwap ((r.step (.event (.queueInLoop t task))).loop.waking t = true)
      (r.step (.event (.queueInLoop t task))) := by
    intro hmiss
    have hmiss : r.loop.phase.missesSwap = true := hmiss
    by_cases hwake : (!r.loop.isInLoopThread t || r.loop.callingPendingTasks) = true
    · right
      show (if _ then Function.update r.loop.waking t true else r.loop.waking) t = true
      rw [if_pos hwake, Function.update_self]
    · have helided := EventLoop.not_missesSwap_of_elided h hpush (Bool.not_eq_true _ ▸ hwake)
      exact absurd (helided.symm.trans hmiss) Bool.false_ne_true
  have hstep : ∀ (r : Reactor T α) i, Heard Phase.missesSwap (r.loop.waking t = true) r →
      r.Enabled slack i ∧ i ≠ .event .swap →
      Heard Phase.missesSwap ((r.step i).loop.waking t = true) (r.step i) :=
    fun _ i h hok => h.step hok.1 rfl (fun hp => (missesSwap_step hok.1 hok.2 hp).1) (waking_step i)
  rw [run_cons]
  exact run_invariant hstep hstart (hok.2.and_forall hswap)

/-- A thread that calls `quit()` has been heard when the call returns. -/
theorem heard_quit {t : T} {steps : List (ReactorStep T α)}
    (hok : Admissible step (Enabled slack) r (.quit t :: steps))
    (hloop : ∀ i ∈ steps, ∀ u, i ≠ .event (.loop u)) :
    (run step r (.quit t :: steps)).quitting = true
      ∧ Heard Phase.polls ((run step r (.quit t :: steps)).loop.waking t = true)
          (run step r (.quit t :: steps)) := by
  have hstart : Heard Phase.polls ((r.quit t).loop.waking t = true) (r.quit t) := by
    intro hpolls
    rw [phase_quit] at hpolls
    right
    unfold quit
    dsimp only
    split
    · rename_i hself
      have hawake := Phase.not_polls_of_runsUserCode (hok.1.2 (decide_eq_true_eq.mp hself))
      exact absurd (hawake.symm.trans hpolls) Bool.false_ne_true
    · exact Function.update_self ..
  have hstep : ∀ (r : Reactor T α) i,
      r.quitting = true ∧ Heard Phase.polls (r.loop.waking t = true) r →
      r.Enabled slack i ∧ (∀ u, i ≠ .event (.loop u)) →
      (r.step i).quitting = true ∧ Heard Phase.polls ((r.step i).loop.waking t = true) (r.step i) := by
    rintro r i ⟨hquit, h⟩ ⟨hok, hloop⟩
    refine ⟨quitting_step hquit hloop, h.step hok rfl ?_ (waking_step i)⟩
    obtain ⟨ms, rfl⟩ | ⟨-, -, -, hpolls⟩ | ⟨⟨u, rfl⟩ | hstays, -⟩ := sleep_cases hok
    · exact id
    · exact hpolls
    · exact absurd rfl (hloop u)
    · exact absurd (hstays.symm.trans hquit) Bool.false_ne_true
  rw [run_cons]
  exact run_invariant hstep ⟨rfl, hstart⟩ (hok.2.and_forall hloop)

/-- **Nobody waits for a loop that sleeps.** Take any moment of a run.  Until a timer that waits then is
run or cancelled, the clock is not further than its expiry, or than that moment if it was due already.
Until a task whose `queue_in_loop` has returned is swapped out, and after a `quit()` that has returned,
the clock is not further than that moment.  A loop that a signal handler tells to quit may sleep for one
more second.  All this is but for the slack of one poll and for the time that the loop thread spends
outside of poll; and a loop that has been told to quit does not begin another poll. -/
theorem nobody_waits (slack clock : Nat) (before after : List (ReactorStep T α))
    (hok : Admissible step (Enabled slack) (init clock) (before ++ after)) :
    let r₀ : Reactor T α := run step (init clock) before
    let r₁ := run step r₀ after
    let late := slack + (r₁.busy - r₀.busy)
    (∀ node, node ∈ r₀.wheel.timers → node.id ∈ r₀.wheel.active → (∀ i ∈ after, Leaves node i) →
        r₁.now ≤ max r₀.now node.expireMs + late)
      ∧ (∀ prior t task mid, before = prior ++ .event (.queueInLoop t task) :: mid →
          r₀.loop.waking t = false → (∀ i ∈ mid ++ after, i ≠ .event .swap) → r₁.now ≤ r₀.now + late)
      ∧ (∀ prior t mid, before = prior ++ .quit t :: mid → r₀.loop.waking t = false →
          (∀ i ∈ mid ++ after, ∀ u, i ≠ .event (.loop u)) →
          r₁.now ≤ r₀.now + late ∧ (r₁.loop.phase.polls = true → r₀.loop.phase.polls = true))
      ∧ (r₀.quitting = true → (∀ i ∈ after, ∀ u, i ≠ .event (.loop u)) →
          r₁.now ≤ r₀.now + 1000 + late
            ∧ (r₁.loop.phase.polls = true → r₀.loop.phase.polls = true)) := by
  intro r₀ r₁ late
  obtain ⟨hbefore, hafter⟩ := admissible_append.mp hok
  have hinv : r₀.Inv := run_inv hbefore
  refine ⟨?_, ?_, ?_, ?_⟩
  · intro node hnode hactive hleaves
    exact timer_on_time hinv hnode hactive hafter hleaves
  · intro prior t task mid hsplit hreturned hswap
    rw [List.forall_mem_append] at hswap
    have hheard : Heard Phase.missesSwap (r₀.loop.waking t = true) r₀ := by
      rw [hsplit] at hbefore
      obtain ⟨hprior, hcall⟩ := admissible_append.mp hbefore
      have hrun : r₀ = run step (run step (init clock) prior) (.event (.queueInLoop t task) :: mid) := by
        rw [← run_append, ← hsplit]
      rw [hrun]
      exact heard_queueInLoop (run_inv hprior).loop hcall hswap.1
    refine task_on_time hinv (fun hmiss => ?_) hafter hswap.2
    exact (hheard hmiss).imp_right fun hwaking =>
      absurd (hreturned.symm.trans hwaking) Bool.false_ne_true
  · intro prior t mid hsplit hreturned hloop
    rw [List.forall_mem_append] at hloop
    have hheard : r₀.quitting = true ∧ Heard Phase.polls (r₀.loop.waking t = true) r₀ := by
      rw [hsplit] at hbefore
      obtain ⟨-, hcall⟩ := admissible_append.mp hbefore
      have hrun : r₀ = run step (run step (init clock) prior) (.quit t :: mid) := by
        rw [← run_append, ← hsplit]
      rw [hrun]
      exact heard_quit hcall hloop.1
    have hwake : r₀.loop.phase.polls = true → r₀.wake ≤ r₀.now + 0 := by
      intro hp
      refine hinv.sleeps.prompt hp ((hheard.2 hp).resolve_right fun hwaking => ?_)
      exact absurd (hreturned.symm.trans hwaking) Bool.false_ne_true
    exact quit_on_time hheard.1 hwake hafter hloop.2
  · intro hquit hloop
    exact quit_on_time hquit hinv.sleeps.bounded hafter hloop

instance (slack : Nat) (r : Reactor T α) [DecidableEq α] :
    (i : ReactorStep T α) → Decidable (r.Enabled slack i)
  | .elapse _ => inferInstanceAs (Decidable (_ → _))
  | .event (.loop t) => inferInstanceAs (Decidable (r.loop.Enabled (.loop t)))
  | .event (.queueInLoop t task) => inferInstanceAs (Decidable (r.loop.Enabled (.queueInLoop t task)))
  | .event (.wakeup t) => inferInstanceAs (Decidable (r.loop.Enabled (.wakeup t)))
  | .event .pollReturns => inferInstanceAs (Decidable (r.loop.Enabled .pollReturns))
  | .event .handleReadWakeup => inferInstanceAs (Decidable (r.loop.Enabled .handleReadWakeup))
  | .event .eventsHandled => inferInstanceAs (Decidable (_ ∧ _))
  | .event .timersTicked => inferInstanceAs (Decidable (_ ∧ _))
  | .event .swap => inferInstanceAs (Decidable (r.loop.Enabled .swap))
  | .event .runTask => inferInstanceAs (Decidable (r.loop.Enabled .runTask))
  | .event .taskReturns => inferInstanceAs (Decidable (r.loop.Enabled .taskReturns))
  | .event .tasksReturn => inferInstanceAs (Decidable (r.loop.Enabled .tasksReturn))
  | .timer (.addTimer _ _ _) => inferInstanceAs (Decidable (_ ∧ _ ∧ _))
  | .timer (.cancel _) | .timer (.run _ _) | .timer (.skip _ _) | .timer .returns =>
      inferInstanceAs (Decidable (_ ∧ _))
  | .timer (.tick _) | .timer (.endTick _) => inferInstanceAs (Decidable False)
  | .quit _ => inferInstanceAs (Decidable (_ ∧ (_ → _)))
  | .signal _ => inferInstanceAs (Decidable (_ ≠ _))

/-- A timer of 50 ms is set at 100, and the loop sleeps.  At 105 thread 1 pushes a task; poll returns two
ms after that, which is all the slack it has. -/
theorem nobody_waits_sample :
    let before : List (ReactorStep Nat Nat) :=
      [.timer (.addTimer 100 50 false), .event (.loop 0), .elapse 5, .event (.queueInLoop 1 7),
        .event (.wakeup 1)]
    let after := [.elapse 2, .event .pollReturns, .elapse 30, .event .handleReadWakeup]
    let r₀ := run step (init 100) before
    let r₁ := run step r₀ after
    Admissible step (Enabled 2) (init 100) (before ++ after)
      ∧ r₀.wheel.timers = [⟨1, 150, 0, false⟩]
      ∧ (r₀.now, r₁.now, r₁.busy - r₀.busy) = (105, 137, 30)
      ∧ r₁.now ≤ max r₀.now 150 + (2 + (r₁.busy - r₀.busy))
      ∧ r₁.now ≤ r₀.now + (2 + (r₁.busy - r₀.busy)) := by
  intro before after r₀ r₁
  have hok : Admissible step (Enabled 2) (init 100) (before ++ after) := by decide
  have hleaves : ∀ i ∈ after, Leaves ⟨1, 150, 0, false⟩ i := by
    simp [after, Leaves]
  have hswap : ∀ i ∈ [ReactorStep.event (.wakeup 1)] ++ after, i ≠ .event .swap := by
    simp [after]
  obtain ⟨htimer, htask, -⟩ := nobody_waits 2 100 before after hok
  refine ⟨hok, by decide, by decide, htimer ⟨1, 150, 0, false⟩ (by decide) (by decide) hleaves, ?_⟩
  exact htask [.timer (.addTimer 100 50 false), .event (.loop 0), .elapse 5] 1 7 [.event (.wakeup 1)] rfl
    (by decide) hswap

end Reactor

end LightNet.Core
