/-
# LightNet.Coro.AsyncSleep — how long `co_await AsyncSleep{loop, ms}` takes.

The await sets a one-shot timer, whose callback passes the coroutine to `schedule_coro`; it is resumed by
a task of the loop.  The callback runs on the loop thread while the timers tick, so nothing is written to
the eventfd; the batch is swapped out in the same round, and the loop thread does not sleep in between.
-/
import LightNet.Core.Prompt

namespace LightNet.Coro

open LightNet.Foundation LightNet.Core

/-- A task of the loop. -/
inductive SleepTask where
  /-- Resumes the coroutine that sleeps on timer `id`. -/
  | resume (id : Nat)
  | other
  deriving DecidableEq

/-- A loop on which coroutines sleep. -/
structure SleepLoop (T : Type) where
  reactor : Reactor T SleepTask
  /-- The timers that `AsyncSleep` has set. -/
  sleeping : List Nat := []

/-- What happens next: an await begins, or something else on the loop. -/
inductive SleepStep (T : Type) where
  /-- `await_suspend` of an `AsyncSleep`. -/
  | sleep (ms : Nat)
  /-- The callback of its timer, on thread `me`. -/
  | wake (me : T) (now : Nat) (node : TimerNode)
  /-- Something else happens in the loop. -/
  | loop (i : ReactorStep T SleepTask)

namespace SleepLoop

variable {T : Type}

/-- A loop that nobody has entered and on which nobody sleeps. -/
def init (clock : Nat) : SleepLoop T where
  reactor := .init clock

variable [DecidableEq T]

/-- What the step does. -/
def step (s : SleepLoop T) : SleepStep T → SleepLoop T
  | .sleep ms =>
      { reactor := s.reactor.step (.timer (.addTimer s.reactor.now ms false))
        sleeping := s.reactor.wheel.nextId :: s.sleeping }
  | .wake me now node =>
      { s with
        reactor := (s.reactor.step (.timer (.run now node))).step
          (.event (.queueInLoop me (.resume node.id))) }
  | .loop i => { s with reactor := s.reactor.step i }

/-- The step is not one of `AsyncSleep`.  The id of its timer is known to nobody. -/
def Foreign (s : SleepLoop T) : ReactorStep T SleepTask → Prop
  | .timer (.run _ node) => node.id ∉ s.sleeping
  | .timer (.cancel id) => id ∉ s.sleeping
  | .event (.queueInLoop _ task) => task = .other
  | _ => True

/-- The step can be taken now.  `await_ready` has said no. -/
def Enabled (slack : Nat) (s : SleepLoop T) : SleepStep T → Prop
  | .sleep ms => 0 < ms ∧ s.reactor.Enabled slack (.timer (.addTimer s.reactor.now ms false))
  | .wake me now node =>
      node.id ∈ s.sleeping ∧ s.reactor.loop.threadId = some me
        ∧ s.reactor.Enabled slack (.timer (.run now node))
        ∧ (s.reactor.step (.timer (.run now node))).Enabled slack
            (.event (.queueInLoop me (.resume node.id)))
  | .loop i => s.Foreign i ∧ s.reactor.Enabled slack i

/-! ## One sleep -/

/-- The step leaves the timer and the task of sleep `id` alone. -/
def Apart (id : Nat) : ReactorStep T SleepTask → Prop
  | .timer (.run _ node) => node.id ≠ id
  | .timer (.cancel other) => other ≠ id
  | .event (.queueInLoop _ task) => task ≠ .resume id
  | _ => True

variable {slack : Nat} {s : SleepLoop T} {r : Reactor T SleepTask} {id ms : Nat} {start : Reactor.Beat}

omit [DecidableEq T] in
theorem Foreign.apart {i : ReactorStep T SleepTask} (h : s.Foreign i) (hid : id ∈ s.sleeping) :
    Apart id i := by
  cases i with
  | timer t =>
      cases t with
      | run now node =>
          rintro rfl
          exact h hid
      | cancel other =>
          rintro rfl
          exact h hid
      | addTimer _ _ _ | tick _ | skip _ _ | returns | endTick _ => exact trivial
  | event e =>
      cases e with
      | queueInLoop t task =>
          have hother : task = .other := h
          show task ≠ .resume id
          simp [hother]
      | loop _ | wakeup _ | pollReturns | handleReadWakeup | eventsHandled | timersTicked | swap
      | runTask | taskReturns | tasksReturn => exact trivial
  | elapse _ | quit _ | signal _ => exact trivial

omit [DecidableEq T] in
theorem Foreign.not_pushes {i : ReactorStep T SleepTask} (h : s.Foreign i) (id : Nat) :
    .resume id ∉ Reactor.pushes i := by
  unfold Reactor.pushes
  split
  · have hother : _ = SleepTask.other := h
    rw [hother, List.mem_singleton]
    simp
  · exact List.not_mem_nil

omit [DecidableEq T] in
theorem Apart.not_pushes {i : ReactorStep T SleepTask} (h : Apart id i) :
    .resume id ∉ Reactor.pushes i := by
  unfold Reactor.pushes
  split
  · exact fun hmem => h (List.mem_singleton.mp hmem).symm
  · exact List.not_mem_nil

/-- The clock does not go back. -/
theorem now_le_step {i : ReactorStep T SleepTask} (hok : r.Enabled slack i) : r.now ≤ (r.step i).now := by
  obtain ⟨ms, rfl⟩ | ⟨hnow, -⟩ | ⟨-, -, -, -, r', hstep, hnow, -⟩ := Reactor.sleep_cases hok
  · exact Nat.le_add_right _ _
  · exact hnow.ge
  · rw [hstep]
    exact hnow.ge

/-! ## From the await to the resumption -/

/-- A coroutine has gone to sleep at `start` for `ms`, on timer `id`. -/
inductive Asleep (slack id ms : Nat) (start : Reactor.Beat) (r : Reactor T SleepTask) : Prop where
  | waits (node : TimerNode) (hid : node.id = id) (hexpires : node.expireMs = start.time + ms)
      (howed : r.Owed slack (start.time + ms) start.busy node)
      (hkeep : TimerWheel.Keeps id (fun node => node.repeats = false) r.wheel)
      (hnone : .resume id ∉ r.loop.pushed)
  /-- The callback of the timer has pushed the task. -/
  | resumed (hspent : TimerWheel.Spent id r.wheel) (hcount : r.loop.pushed.count (.resume id) = 1)
      (hnow : start.time + ms ≤ r.now)
      (hhurried : .resume id ∉ r.loop.executed →
        r.Hurried slack (start.time + ms) start.busy (.resume id))

theorem Asleep.step {i : ReactorStep T SleepTask} (h : Asleep slack id ms start r) (hinv : r.Inv)
    (hok : r.Enabled slack i) (hapart : Apart id i) : Asleep slack id ms start (r.step i) := by
  have hpushes := hapart.not_pushes
  cases h with
  | waits node hid hexpires howed hkeep hnone =>
      have hleaves : Reactor.Leaves node i := by
        cases i with
        | timer t =>
            constructor
            · rintro rfl
              exact hapart hid
            · intro hruns
              obtain ⟨now, other, rfl, hother⟩ := TimerStep.runs_iff.mp hruns
              exact hapart (hother.trans hid)
        | elapse _ | event _ | quit _ | signal _ => exact trivial
      refine .waits node hid hexpires (howed.step hok hleaves) ?_ ?_
      · exact Reactor.wheel_step (fun _ _ h hlegal =>
          TimerWheel.keeps_step (fun _ _ hno _ => hno) h hlegal) hkeep hok
      · rw [Reactor.pushed_step, List.mem_append]
        exact fun hmem => hmem.elim hnone hpushes
  | resumed hspent hcount hnow hhurried =>
      have hpushed : .resume id ∈ r.loop.pushed := List.count_pos_iff.mp (by omega)
      refine .resumed ?_ ?_ (hnow.trans (now_le_step hok)) fun hwaits => ?_
      · exact Reactor.wheel_step (fun _ _ h hlegal => TimerWheel.spent_step h hlegal) hspent hok
      · rw [Reactor.pushed_step, List.count_append, hcount, List.count_eq_zero.mpr hpushes]
      · have hbefore : .resume id ∉ r.loop.executed := fun hmem =>
          hwaits ((r.executed_step i).subset hmem)
        exact (hhurried hbefore).step hinv.loop hpushed hbefore hok hpushes

/-- The timer of the sleep is run, and its callback pushes the task. -/
theorem Asleep.wake {me : T} {now : Nat} {node : TimerNode} (h : Asleep slack id ms start r)
    (hin : r.InStep) (hok : r.Enabled slack (.timer (.run now node))) (hid : node.id = id) :
    Asleep slack id ms start
      ((r.step (.timer (.run now node))).step (.event (.queueInLoop me (.resume id)))) := by
  have hlegal := (Reactor.timer_cases hok).2.1
  obtain ⟨hticking, ⟨hmem, -, hdue⟩, -⟩ := hlegal.1
  obtain ⟨htimers, hlast⟩ := hin.ticking now (by rw [hticking]; rfl)
  have hclocks := hin.clocks htimers
  have hgrows := hin.grows
  cases h with
  | waits other hother hexpires howed hkeep hnone =>
      obtain rfl : other = node := hkeep.1.node_unique
        (TimerWheel.mem_nodes.mpr (.inr howed.waiting.2.1)) (TimerWheel.mem_nodes.mpr (.inr hmem))
        (hother.trans hid.symm)
      refine .resumed (TimerWheel.spent_of_run hkeep hlegal hid) ?_ ?_ fun _ => ⟨?_, fun _ => .inl htimers⟩
      · show (r.loop.pushed ++ [SleepTask.resume id]).count (.resume id) = 1
        rw [List.count_append, List.count_eq_zero.mpr hnone, List.count_singleton_self]
      · show start.time + ms ≤ r.now
        omega
      · exact howed.within.stay rfl rfl (le_refl _) (fun hp => hp) False.elim
  | resumed hspent hcount hnow hhurried =>
      exact absurd (TimerStep.runs_iff.mpr ⟨now, node, rfl, hid⟩)
        (TimerWheel.not_runs_of_spent hspent hlegal)

/-! ## Runs -/

/-- What holds in every run. -/
structure Inv (s : SleepLoop T) : Prop where
  reactor : s.reactor.Inv
  inStep : s.reactor.InStep
  allocated : ∀ id ∈ s.sleeping, s.reactor.wheel.Allocated id
  known : ∀ id, .resume id ∈ s.reactor.loop.pushed → id ∈ s.sleeping

omit [DecidableEq T] in
theorem init_inv (clock : Nat) : (init clock : SleepLoop T).Inv where
  reactor := Reactor.init_inv clock
  inStep := Reactor.init_inStep clock
  allocated _ hid := absurd hid List.not_mem_nil
  known _ hid := absurd hid List.not_mem_nil

/-- A step of the loop that resumes only who sleeps. -/
theorem Inv.loop {i : ReactorStep T SleepTask} (h : s.Inv) (hok : s.reactor.Enabled slack i)
    (hpushes : ∀ id, .resume id ∈ Reactor.pushes i → id ∈ s.sleeping) :
    Inv { s with reactor := s.reactor.step i } where
  reactor := h.reactor.step hok
  inStep := h.inStep.step hok
  allocated id hid :=
    Reactor.wheel_step (P := fun w => w.Allocated id) (fun _ _ h _ => TimerWheel.allocated_step h)
      (h.allocated id hid) hok
  known id hid := by
    rw [Reactor.pushed_step, List.mem_append] at hid
    exact hid.elim (h.known id) (hpushes id)

theorem Inv.step {i : SleepStep T} (h : s.Inv) (hok : s.Enabled slack i) : (s.step i).Inv := by
  cases i with
  | sleep ms =>
      have hnext := h.loop hok.2 fun _ hid => absurd hid List.not_mem_nil
      refine ⟨hnext.reactor, hnext.inStep, fun id hid => ?_, fun id hid => ?_⟩
      · obtain rfl | hold := List.mem_cons.mp hid
        · exact (TimerWheel.keeps_addTimer h.reactor.wheel hok.2.2.2).2.1
        · exact hnext.allocated id hold
      · exact List.mem_cons_of_mem _ (hnext.known id hid)
  | wake me now node =>
      obtain ⟨hmem, -, hrun, hpush⟩ := hok
      have hnext := h.loop hrun fun _ hid => absurd hid List.not_mem_nil
      refine hnext.loop hpush fun id hid => ?_
      obtain rfl := SleepTask.resume.inj (List.mem_singleton.mp hid)
      exact hmem
  | loop i => exact h.loop hok.2 fun id hid => absurd hid (hok.1.not_pushes id)

/-! ## The sleep along a run -/

theorem asleep_step {i : SleepStep T} (h : s.Inv) (hid : id ∈ s.sleeping)
    (hasleep : Asleep slack id ms start s.reactor) (hok : s.Enabled slack i) :
    id ∈ (s.step i).sleeping ∧ Asleep slack id ms start (s.step i).reactor := by
  cases i with
  | sleep ms' => exact ⟨List.mem_cons_of_mem _ hid, hasleep.step h.reactor hok.2 trivial⟩
  | wake me now node =>
      obtain ⟨-, -, hrun, hpush⟩ := hok
      refine ⟨hid, ?_⟩
      by_cases hown : node.id = id
      · subst hown
        exact hasleep.wake h.inStep hrun rfl
      · have hapart : Apart id (.event (.queueInLoop me (.resume node.id)) : ReactorStep T SleepTask) :=
          fun heq => hown (SleepTask.resume.inj heq)
        exact (hasleep.step h.reactor hrun hown).step (h.reactor.step hrun) hpush hapart
  | loop i => exact ⟨hid, hasleep.step h.reactor hok.2 (hok.1.apart hid)⟩

/-- The await begins. -/
theorem asleep_sleep (h : s.Inv) (hok : s.Enabled slack (.sleep ms)) :
    Asleep slack s.reactor.wheel.nextId ms ⟨s.reactor.now, s.reactor.busy⟩ (s.step (.sleep ms)).reactor := by
  obtain ⟨hexpires, howed⟩ := Reactor.owed_addTimer h.reactor.wheel hok.2
  have hlegal := hok.2.2.2
  have hkeep := TimerWheel.keeps_addTimer h.reactor.wheel hlegal
  refine .waits _ rfl hexpires howed (hkeep.mono fun node hnode => by rw [hnode]; rfl) fun hmem => ?_
  have hfresh := (h.reactor.wheel.nextId_fresh hlegal.2.2.2).2
  exact hfresh (h.allocated _ (h.known _ hmem))

/-- **A sleep lasts as long as it should.** Take any moment of a run at which a coroutine goes to sleep for
`ms`.  It is resumed at most once, and not before `ms` have passed.  Until it has been resumed, not more
than `ms` have passed, but for the slack of one poll and the time that the loop thread has spent outside
of poll. -/
theorem sleeps_on_time (slack clock : Nat) (before after : List (SleepStep T)) (ms : Nat)
    (hok : Admissible step (Enabled slack) (init clock) (before ++ .sleep ms :: after)) :
    let s₀ : SleepLoop T := run step (init clock) before
    let s₁ := run step (init clock) (before ++ .sleep ms :: after)
    let resumed := SleepTask.resume s₀.reactor.wheel.nextId
    s₁.reactor.loop.executed.count resumed ≤ 1
      ∧ (resumed ∈ s₁.reactor.loop.executed → s₀.reactor.now + ms ≤ s₁.reactor.now)
      ∧ (resumed ∉ s₁.reactor.loop.executed →
          s₁.reactor.now ≤ s₀.reactor.now + ms + (slack + (s₁.reactor.busy - s₀.reactor.busy))) := by
  intro s₀ s₁ resumed
  obtain ⟨hbefore, hsleep, hafter⟩ := admissible_append.mp hok
  have hstep : ∀ (s : SleepLoop T) i, s.Inv → s.Enabled slack i → (s.step i).Inv :=
    fun _ _ h hok => h.step hok
  have h₀ : s₀.Inv := run_invariant hstep (init_inv clock) hbefore
  have hasleep : ∀ (s : SleepLoop T) i,
      s.Inv ∧ s₀.reactor.wheel.nextId ∈ s.sleeping
        ∧ Asleep slack s₀.reactor.wheel.nextId ms ⟨s₀.reactor.now, s₀.reactor.busy⟩ s.reactor →
      s.Enabled slack i → (s.step i).Inv ∧ s₀.reactor.wheel.nextId ∈ (s.step i).sleeping
        ∧ Asleep slack s₀.reactor.wheel.nextId ms ⟨s₀.reactor.now, s₀.reactor.busy⟩ (s.step i).reactor :=
    fun _ _ h hok => ⟨h.1.step hok, asleep_step h.1 h.2.1 h.2.2 hok⟩
  have hs₁ : s₁ = run step (s₀.step (.sleep ms)) after := by
    show run step (init clock) (before ++ .sleep ms :: after) = _
    rw [run_append, run_cons]
  obtain ⟨hinv, -, hend⟩ := run_invariant hasleep
    ⟨h₀.step hsleep, List.mem_cons_self, asleep_sleep h₀ hsleep⟩ hafter
  rw [← hs₁] at hinv hend
  have hexecuted : s₁.reactor.loop.executed <+: s₁.reactor.loop.pushed := by
    rw [hinv.reactor.loop.conserved, List.append_assoc]
    exact List.prefix_append _ _
  cases hend with
  | waits node hid hexpires howed hkeep hnone =>
      have hno : resumed ∉ s₁.reactor.loop.executed := fun hmem => hnone (hexecuted.subset hmem)
      have hgrows : s₀.reactor.busy ≤ s₁.reactor.busy := howed.within.grows
      have hlate : s₁.reactor.now + s₀.reactor.busy
          ≤ s₀.reactor.now + ms + s₁.reactor.busy + slack := howed.within.late
      refine ⟨by rw [List.count_eq_zero.mpr hno]; exact Nat.zero_le _, fun hmem => absurd hmem hno, ?_⟩
      intro _
      omega
  | resumed hspent hcount hnow hhurried =>
      refine ⟨?_, fun _ => hnow, fun hwaits => ?_⟩
      · rw [← hcount]
        exact hexecuted.sublist.count_le _
      · have hgrows : s₀.reactor.busy ≤ s₁.reactor.busy := (hhurried hwaits).within.grows
        have hlate : s₁.reactor.now + s₀.reactor.busy
            ≤ s₀.reactor.now + ms + s₁.reactor.busy + slack := (hhurried hwaits).within.late
        omega

instance (s : SleepLoop T) : (i : ReactorStep T SleepTask) → Decidable (s.Foreign i)
  | .timer (.run _ _) | .timer (.cancel _) => inferInstanceAs (Decidable (_ ∉ _))
  | .event (.queueInLoop _ _) => inferInstanceAs (Decidable (_ = _))
  | .timer (.addTimer _ _ _) | .timer (.tick _) | .timer (.skip _ _) | .timer .returns
  | .timer (.endTick _) | .event (.loop _) | .event (.wakeup _) | .event .pollReturns
  | .event .handleReadWakeup | .event .eventsHandled | .event .timersTicked | .event .swap
  | .event .runTask | .event .taskReturns | .event .tasksReturn | .elapse _ | .quit _
  | .signal _ => inferInstanceAs (Decidable True)

instance (slack : Nat) (s : SleepLoop T) : (i : SleepStep T) → Decidable (s.Enabled slack i)
  | .sleep _ => inferInstanceAs (Decidable (_ ∧ _))
  | .wake _ _ _ => inferInstanceAs (Decidable (_ ∧ _ ∧ _ ∧ _))
  | .loop _ => inferInstanceAs (Decidable (_ ∧ _))

/-- A coroutine goes to sleep at 110 for 50 ms, in a callback, and is resumed at 160. -/
theorem sleeps_on_time_sample :
    let before : List (SleepStep Nat) :=
      [.loop (.event (.loop 0)), .loop (.elapse 10), .loop (.event .pollReturns)]
    let after : List (SleepStep Nat) :=
      [.loop (.event .eventsHandled), .loop (.event .timersTicked), .loop (.event .swap),
        .loop (.event .tasksReturn), .loop (.elapse 50), .loop (.event .pollReturns),
        .loop (.event .eventsHandled), .wake 0 160 ⟨1, 160, 0, false⟩, .loop (.timer .returns),
        .loop (.event .timersTicked), .loop (.event .swap), .loop (.event .runTask)]
    let s : SleepLoop Nat := run step (init 100) (before ++ .sleep 50 :: after)
    Admissible step (Enabled 2) (init 100) (before ++ .sleep 50 :: after)
      ∧ s.reactor.loop.executed = [.resume 1] ∧ 110 + 50 ≤ s.reactor.now := by
  intro before after s
  have hok : Admissible step (Enabled 2) (init 100) (before ++ .sleep 50 :: after) := by decide
  have hresumed : s.reactor.loop.executed = [.resume 1] := by decide
  have hnow := (sleeps_on_time 2 100 before after 50 hok).2.1
  exact ⟨hok, hresumed, hnow (hresumed ▸ List.mem_cons_self)⟩

end SleepLoop

end LightNet.Coro
