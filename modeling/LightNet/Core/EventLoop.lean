/-
# LightNet.Core.EventLoop — pushing threads and the loop thread of `core/event_loop.cpp`.

Any number of threads call `queue_in_loop`: the push under the lock is one step, the write to the
eventfd another, and anything may happen in between.  The loop thread goes from poll to the channel
callbacks, to the timers and to `do_pending_tasks`, and user code that runs in these phases pushes
tasks too.  A run is any interleaving of such steps.

The write is left out when the loop thread pushes and no batch is running.  What makes that safe is
`Inv.signalled`: from the swap of one batch until poll returns again, a task that is waiting has
either made the eventfd readable or belongs to a thread that is about to.
-/
import LightNet.Foundation.Run
import Mathlib.Logic.Function.Basic
import Mathlib.Tactic.Ring

namespace LightNet.Core

open LightNet.Foundation

/-! ## Phases -/

/-- Where the loop thread is inside `loop()`. -/
inductive Phase (α : Type) where
  /-- `loop()` has not been called. -/
  | outside
  /-- Blocked in `poller_->poll`. -/
  | poll
  /-- The callbacks of the active channels. -/
  | events
  /-- `timer_wheel_->tick`. -/
  | timers
  /-- In `do_pending_tasks`, before the swap. -/
  | entering
  /-- The batch has been swapped out; these tasks of it are still to be run. -/
  | between (batch : List α)
  /-- A task of the batch runs, and these come after it. -/
  | inTask (batch : List α)
  deriving DecidableEq

namespace Phase

variable {α : Type}

/-- The tasks that have been swapped out and not yet been started. -/
def batch : Phase α → List α
  | between tasks | inTask tasks => tasks
  | _ => []

/-- User code runs, so the loop thread may push. -/
def runsUserCode : Phase α → Bool
  | events | timers | inTask _ => true
  | _ => false

/-- The value of `calling_pending_tasks_`. -/
def callsTasks : Phase α → Bool
  | entering | between _ | inTask _ => true
  | _ => false

/-- What is pushed now is not swapped out before the next return of poll. -/
def missesSwap : Phase α → Bool
  | outside | poll | between _ | inTask _ => true
  | _ => false

end Phase

/-! ## The state -/

/-- `lightnet::EventLoop`, its eventfd and the threads that use it.  `pushed` and `executed` are the
history of the run; no step reads them. -/
structure EventLoop (T α : Type) where
  threadId : Option T
  pendingTasks : List α
  callingPendingTasks : Bool
  /-- The counter behind `wakeup_fd_`. -/
  wakeupCount : Nat
  /-- The threads that have pushed and not yet written to the eventfd. -/
  waking : T → Bool
  phase : Phase α
  pushed : List α
  executed : List α

/-- A step of some thread. -/
inductive LoopEvent (T α : Type) where
  /-- Thread `t` calls `loop()`. -/
  | loop (t : T)
  /-- Thread `t` pushes a task, and decides whether to wake the loop. -/
  | queueInLoop (t : T) (task : α)
  /-- Thread `t` writes to the eventfd. -/
  | wakeup (t : T)
  | pollReturns
  | handleReadWakeup
  | eventsHandled
  | timersTicked
  | swap
  | runTask
  | taskReturns
  | tasksReturn

namespace EventLoop

variable {T α : Type}

/-! ## What the threads do -/

/-- The largest value an eventfd holds; a write beyond it fails and leaves the counter as it is. -/
def kEventfdMax : Nat := 2 ^ 64 - 2

/-- A loop that no thread has entered. -/
def init : EventLoop T α where
  threadId := none
  pendingTasks := []
  callingPendingTasks := false
  wakeupCount := 0
  waking _ := false
  phase := .outside
  pushed := []
  executed := []

variable [DecidableEq T]

/-- `is_in_loop_thread()`. -/
def isInLoopThread (l : EventLoop T α) (t : T) : Bool := l.threadId = some t

/-- The loop thread has something to write before it goes on. -/
def loopThreadWaking (l : EventLoop T α) : Bool := l.threadId.any l.waking

/-- `queue_in_loop(task)`, up to the write to the eventfd. -/
def queueInLoop (l : EventLoop T α) (t : T) (task : α) : EventLoop T α :=
  { l with
    pendingTasks := l.pendingTasks ++ [task]
    pushed := l.pushed ++ [task]
    waking :=
      if !l.isInLoopThread t || l.callingPendingTasks then Function.update l.waking t true
      else l.waking }

/-- `wakeup()`: the write to the eventfd. -/
def wakeup (l : EventLoop T α) (t : T) : EventLoop T α :=
  { l with
    wakeupCount := if l.wakeupCount < kEventfdMax then l.wakeupCount + 1 else l.wakeupCount
    waking := Function.update l.waking t false }

/-- The tasks of the batch are run one after the other. -/
def runTask (l : EventLoop T α) : EventLoop T α :=
  match l.phase with
  | .between (task :: batch) => { l with phase := .inTask batch, executed := l.executed ++ [task] }
  | _ => l

/-- What the event does. -/
def step (l : EventLoop T α) : LoopEvent T α → EventLoop T α
  | .loop t => { l with threadId := some t, phase := .poll }
  | .queueInLoop t task => l.queueInLoop t task
  | .wakeup t => l.wakeup t
  | .pollReturns => { l with phase := .events }
  | .handleReadWakeup => { l with wakeupCount := 0 }
  | .eventsHandled => { l with phase := .timers }
  | .timersTicked => { l with phase := .entering, callingPendingTasks := true }
  | .swap => { l with phase := .between l.pendingTasks, pendingTasks := [] }
  | .runTask => l.runTask
  | .taskReturns => { l with phase := .between l.phase.batch }
  | .tasksReturn => { l with phase := .poll, callingPendingTasks := false }

/-- The step can be taken now: each thread does one thing after the other. -/
def Enabled (l : EventLoop T α) : LoopEvent T α → Prop
  | .loop t => l.phase = .outside ∧ l.waking t = false
  | .queueInLoop t _ => l.waking t = false ∧ (l.threadId = some t → l.phase.runsUserCode = true)
  | .wakeup t => l.waking t = true
  | .pollReturns => l.phase = .poll
  | .handleReadWakeup => l.phase = .events ∧ l.loopThreadWaking = false
  | .eventsHandled => l.phase = .events ∧ l.loopThreadWaking = false
  | .timersTicked => l.phase = .timers ∧ l.loopThreadWaking = false
  | .swap => l.phase = .entering
  | .runTask => ∃ task batch, l.phase = .between (task :: batch)
  | .taskReturns => (∃ batch, l.phase = .inTask batch) ∧ l.loopThreadWaking = false
  | .tasksReturn => l.phase = .between []

/-! ## The invariant -/

/-- What holds at every moment of every interleaving. -/
structure Inv (l : EventLoop T α) : Prop where
  /-- Every task is in one place, in the order of the pushes. -/
  conserved : l.pushed = l.executed ++ l.phase.batch ++ l.pendingTasks
  calling_eq : l.callingPendingTasks = l.phase.callsTasks
  /-- The loop thread has done its writes before it leaves user code. -/
  loopThread_written : l.phase.runsUserCode = false → l.loopThreadWaking = false
  /-- A task that waits for the next batch has woken the loop, or is about to. -/
  signalled : l.phase.missesSwap = true → l.pendingTasks ≠ [] →
    0 < l.wakeupCount ∨ ∃ t, l.waking t = true

omit [DecidableEq T] in
theorem init_inv : (init : EventLoop T α).Inv where
  conserved := rfl
  calling_eq := rfl
  loopThread_written _ := rfl
  signalled _ h := absurd rfl h

omit [DecidableEq T] in
/-- The loop thread goes on to another phase with the same batch. -/
theorem Inv.move {l : EventLoop T α} (h : l.Inv) {phase : Phase α} {calling : Bool}
    (hbatch : phase.batch = l.phase.batch) (hcalling : calling = phase.callsTasks)
    (hwritten : phase.runsUserCode = false → l.loopThreadWaking = false)
    (hmiss : phase.missesSwap = true → l.phase.missesSwap = true) :
    Inv { l with phase := phase, callingPendingTasks := calling } where
  conserved := by
    rw [h.conserved, hbatch]
  calling_eq := hcalling
  loopThread_written := hwritten
  signalled hmisses := h.signalled (hmiss hmisses)

/-- A thread that pushes without waking the loop is the loop thread, before the swap. -/
theorem not_missesSwap_of_elided {l : EventLoop T α} (h : l.Inv) {t : T} {task : α}
    (hok : l.Enabled (.queueInLoop t task))
    (helided : (!l.isInLoopThread t || l.callingPendingTasks) = false) :
    l.phase.missesSwap = false := by
  simp only [Bool.or_eq_false_iff, Bool.not_eq_false', isInLoopThread, decide_eq_true_eq] at helided
  obtain ⟨hself, hcalling⟩ := helided
  have huser := hok.2 hself
  rw [h.calling_eq] at hcalling
  cases hphase : l.phase <;> simp_all [Phase.runsUserCode, Phase.callsTasks, Phase.missesSwap]

/-! ## Every event keeps it -/

theorem queueInLoop_inv {l : EventLoop T α} (h : l.Inv) {t : T} {task : α}
    (hok : l.Enabled (.queueInLoop t task)) : (l.queueInLoop t task).Inv where
  conserved := by
    simp only [queueInLoop, h.conserved, List.append_assoc]
  calling_eq := h.calling_eq
  loopThread_written hquiet := by
    have hother : l.threadId ≠ some t := by
      intro hself
      exact absurd ((hok.2 hself).symm.trans hquiet) (by decide)
    have hwritten := h.loopThread_written hquiet
    cases hthread : l.threadId with
    | none => simp [loopThreadWaking, queueInLoop, hthread]
    | some me =>
        have hne : me ≠ t := fun heq => hother (by rw [hthread, heq])
        simp only [loopThreadWaking, hthread, Option.any_some] at hwritten
        simp only [loopThreadWaking, queueInLoop, hthread, Option.any_some]
        split
        · rw [Function.update_of_ne hne, hwritten]
        · exact hwritten
  signalled hmiss _ := by
    by_cases hwake : (!l.isInLoopThread t || l.callingPendingTasks) = true
    · right
      refine ⟨t, ?_⟩
      simp only [queueInLoop, hwake, if_true, Function.update_self]
    · have helided := not_missesSwap_of_elided h hok (Bool.not_eq_true _ ▸ hwake)
      have hmiss' : l.phase.missesSwap = true := hmiss
      rw [helided] at hmiss'
      exact absurd hmiss' (by decide)

theorem wakeup_inv {l : EventLoop T α} (h : l.Inv) (t : T) : (l.wakeup t).Inv where
  conserved := h.conserved
  calling_eq := h.calling_eq
  loopThread_written hquiet := by
    have hwritten := h.loopThread_written hquiet
    cases hthread : l.threadId with
    | none => simp [loopThreadWaking, wakeup, hthread]
    | some me =>
        simp only [loopThreadWaking, hthread, Option.any_some] at hwritten
        simp only [loopThreadWaking, wakeup, hthread, Option.any_some]
        by_cases heq : me = t
        · rw [heq, Function.update_self]
        · rw [Function.update_of_ne heq, hwritten]
  signalled _ _ := by
    left
    have hmax : 0 < kEventfdMax := by decide
    simp only [wakeup]
    split <;> omega

omit [DecidableEq T] in
theorem runTask_inv {l : EventLoop T α} (h : l.Inv) {task : α} {batch : List α}
    (hphase : l.phase = .between (task :: batch)) : l.runTask.Inv := by
  rw [runTask, hphase]
  refine ⟨?_, ?_, ?_, ?_⟩
  · show l.pushed = l.executed ++ [task] ++ batch ++ l.pendingTasks
    have hc : l.pushed = l.executed ++ (task :: batch) ++ l.pendingTasks := by
      rw [h.conserved, hphase]
      rfl
    rw [hc, List.append_assoc l.executed [task], List.singleton_append]
  · show l.callingPendingTasks = true
    rw [h.calling_eq, hphase]
    rfl
  · exact nofun
  · intro _ hne
    exact h.signalled (by rw [hphase]; rfl) hne

omit [DecidableEq T] in
theorem swap_inv {l : EventLoop T α} (h : l.Inv) (hphase : l.phase = .entering) :
    Inv { l with phase := .between l.pendingTasks, pendingTasks := [] } := by
  refine ⟨?_, ?_, ?_, ?_⟩
  · show l.pushed = l.executed ++ l.pendingTasks ++ []
    have hc := h.conserved
    rw [hphase] at hc
    rw [List.append_nil, hc]
    exact congrArg (· ++ l.pendingTasks) (List.append_nil l.executed)
  · show l.callingPendingTasks = true
    rw [h.calling_eq, hphase]
    rfl
  · intro _
    exact h.loopThread_written (by rw [hphase]; rfl)
  · intro _ hne
    exact absurd rfl hne

theorem step_inv {l : EventLoop T α} {e : LoopEvent T α} (h : l.Inv) (hok : l.Enabled e) :
    (l.step e).Inv := by
  have hcalling := h.calling_eq
  cases e with
  | loop t =>
      obtain ⟨hphase, hwaking⟩ := hok
      rw [hphase] at hcalling
      have hmove : Inv { l with phase := .poll } := by
        refine h.move (by rw [hphase]; rfl) hcalling (fun _ => ?_) (fun _ => by rw [hphase]; rfl)
        exact h.loopThread_written (by rw [hphase]; rfl)
      exact ⟨hmove.conserved, hcalling, fun _ => hwaking, hmove.signalled⟩
  | queueInLoop t task => exact queueInLoop_inv h hok
  | wakeup t => exact wakeup_inv h t
  | pollReturns =>
      have hphase : l.phase = .poll := hok
      rw [hphase] at hcalling
      exact h.move (by rw [hphase]; rfl) hcalling nofun nofun
  | handleReadWakeup =>
      refine ⟨h.conserved, hcalling, h.loopThread_written, ?_⟩
      -- poll returns only after the next swap
      intro hmiss
      have hmiss' : l.phase.missesSwap = true := hmiss
      rw [hok.1] at hmiss'
      exact absurd hmiss' Bool.false_ne_true
  | eventsHandled =>
      obtain ⟨hphase, hwaking⟩ := hok
      rw [hphase] at hcalling
      exact h.move (by rw [hphase]; rfl) hcalling (fun _ => hwaking) nofun
  | timersTicked =>
      obtain ⟨hphase, hwaking⟩ := hok
      exact h.move (by rw [hphase]; rfl) rfl (fun _ => hwaking) nofun
  | swap => exact swap_inv h hok
  | runTask =>
      obtain ⟨task, batch, hphase⟩ := hok
      exact runTask_inv h hphase
  | taskReturns =>
      obtain ⟨⟨batch, hphase⟩, hwaking⟩ := hok
      rw [hphase] at hcalling
      exact h.move rfl hcalling (fun _ => hwaking) (fun _ => by rw [hphase]; rfl)
  | tasksReturn =>
      have hphase : l.phase = .between [] := hok
      refine h.move (by rw [hphase]; rfl) rfl (fun _ => ?_) (fun _ => by rw [hphase]; rfl)
      exact h.loopThread_written (by rw [hphase]; rfl)

theorem run_inv {events : List (LoopEvent T α)} (h : Admissible step Enabled init events) :
    (run step (init : EventLoop T α) events).Inv :=
  run_invariant (fun _ _ => step_inv) init_inv h

/-! ## Batches -/

/-- The tasks that have been started or are part of the batch. -/
def taken (l : EventLoop T α) : List α := l.executed ++ l.phase.batch

/-- No step takes a task back. -/
theorem taken_step {l : EventLoop T α} {e : LoopEvent T α} (hok : l.Enabled e) :
    l.taken <+: (l.step e).taken := by
  cases e with
  | loop t => simp only [taken, step, hok.1, Phase.batch, List.prefix_refl]
  | queueInLoop t task => exact List.prefix_refl _
  | wakeup t => exact List.prefix_refl _
  | pollReturns => simp only [taken, step, show l.phase = .poll from hok, Phase.batch, List.prefix_refl]
  | handleReadWakeup => exact List.prefix_refl _
  | eventsHandled => simp only [taken, step, hok.1, Phase.batch, List.prefix_refl]
  | timersTicked => simp only [taken, step, hok.1, Phase.batch, List.prefix_refl]
  | swap =>
      simp only [taken, step, show l.phase = .entering from hok, Phase.batch, List.append_nil]
      exact List.prefix_append _ _
  | runTask =>
      obtain ⟨task, batch, hphase⟩ := hok
      simp only [taken, step, runTask, hphase, Phase.batch, List.append_assoc, List.cons_append,
        List.nil_append, List.prefix_refl]
  | taskReturns => exact List.prefix_refl _
  | tasksReturn =>
      simp only [taken, step, show l.phase = .between [] from hok, Phase.batch, List.prefix_refl]

theorem taken_run {l : EventLoop T α} {events : List (LoopEvent T α)}
    (h : Admissible step Enabled l events) : l.taken <+: (run step l events).taken := by
  have hkeep : ∀ (s : EventLoop T α) (e : LoopEvent T α), l.taken <+: s.taken → s.Enabled e →
      l.taken <+: (s.step e).taken := fun _ _ hs hok => hs.trans (taken_step hok)
  exact run_invariant hkeep (List.prefix_refl _) h

/-- What had been pushed when a batch was swapped out has been executed when the call returns. -/
theorem pushed_executed {before during : List (LoopEvent T α)}
    (h : Admissible step Enabled init (before ++ .swap :: (during ++ [.tasksReturn]))) :
    (run step (init : EventLoop T α) before).pushed
      <+: (run step (init : EventLoop T α) (before ++ .swap :: (during ++ [.tasksReturn]))).executed := by
  obtain ⟨hbefore, hswap, hrest⟩ := admissible_append.mp h
  obtain ⟨hduring, hlast, -⟩ := admissible_append.mp hrest
  have hinv := run_inv hbefore
  set l := run step (init : EventLoop T α) before with hl
  have hpushed : l.pushed = (l.step .swap).taken := by
    have hc := (swap_inv hinv hswap).conserved
    rwa [List.append_nil] at hc
  have hend : (run step (l.step .swap) during).taken
      = (run step (init : EventLoop T α) (before ++ .swap :: (during ++ [.tasksReturn]))).executed := by
    rw [run_append, ← hl, run_cons, run_append, run_cons, run_nil, taken,
      show (run step (l.step .swap) during).phase = .between [] from hlast, Phase.batch,
      List.append_nil]
    rfl
  rw [hpushed, ← hend]
  exact taken_run hduring

/-! ## Runs -/

/-- **No task and no wakeup is lost.** In every interleaving every task is executed, part of the
running batch or waiting, in the order of the pushes; so none is executed twice and none out of order.
What was pushed before the swap of a batch has been executed when `do_pending_tasks` returns.  While
the loop thread is blocked in poll with a task waiting, the eventfd is readable or another thread is
about to write to it. -/
theorem no_task_lost (events : List (LoopEvent T α)) (h : Admissible step Enabled init events) :
    let l := run step (init : EventLoop T α) events
    l.pushed = l.executed ++ l.phase.batch ++ l.pendingTasks
      ∧ l.executed <+: l.pushed
      ∧ (l.pushed.Nodup → l.executed.Nodup)
      ∧ (∀ before during, events = before ++ .swap :: (during ++ [.tasksReturn]) →
          (run step (init : EventLoop T α) before).pushed <+: l.executed)
      ∧ (l.phase = .poll → l.pendingTasks ≠ [] →
          0 < l.wakeupCount ∨ ∃ t, l.threadId ≠ some t ∧ l.waking t = true) := by
  intro l
  have hinv : l.Inv := run_inv h
  have hprefix : l.executed <+: l.pushed := by
    rw [hinv.conserved, List.append_assoc]
    exact List.prefix_append _ _
  refine ⟨hinv.conserved, hprefix, fun hnodup => hnodup.sublist hprefix.sublist, ?_, ?_⟩
  · intro before during hevents
    subst hevents
    exact pushed_executed h
  · intro hpoll hne
    rcases hinv.signalled (by rw [hpoll]; rfl) hne with hcount | ⟨t, hwaking⟩
    · exact .inl hcount
    · right
      refine ⟨t, ?_, hwaking⟩
      intro hself
      have hwritten := hinv.loopThread_written (by rw [hpoll]; rfl)
      rw [loopThreadWaking, hself, Option.any_some, hwaking] at hwritten
      exact absurd hwritten (by decide)

instance (l : EventLoop T α) [DecidableEq α] : (e : LoopEvent T α) → Decidable (l.Enabled e)
  | .loop _ => inferInstanceAs (Decidable (_ ∧ _))
  | .queueInLoop _ _ => inferInstanceAs (Decidable (_ ∧ (_ → _)))
  | .wakeup _ => inferInstanceAs (Decidable (_ = _))
  | .pollReturns => inferInstanceAs (Decidable (_ = _))
  | .handleReadWakeup => inferInstanceAs (Decidable (_ ∧ _))
  | .eventsHandled => inferInstanceAs (Decidable (_ ∧ _))
  | .timersTicked => inferInstanceAs (Decidable (_ ∧ _))
  | .swap => inferInstanceAs (Decidable (_ = _))
  | .runTask =>
      match h : l.phase with
      | .between (task :: batch) => isTrue ⟨task, batch, h⟩
      | .between [] | .inTask _ | .outside | .poll | .events | .timers | .entering =>
          isFalse (by rintro ⟨task, batch, heq⟩; rw [h] at heq; cases heq)
  | .taskReturns =>
      match h : l.phase with
      | .inTask batch =>
          decidable_of_iff (l.loopThreadWaking = false) ⟨fun hw => ⟨⟨batch, h⟩, hw⟩, And.right⟩
      | .between _ | .outside | .poll | .events | .timers | .entering =>
          isFalse (by rintro ⟨⟨batch, heq⟩, -⟩; rw [h] at heq; cases heq)
  | .tasksReturn => inferInstanceAs (Decidable (_ = _))

/-- Thread 1 pushes a task and wakes the loop of thread 0, and the task pushes another one, which is
still waiting when the loop thread is back in poll. -/
theorem no_task_lost_sample :
    let events : List (LoopEvent Nat Nat) :=
      [.loop 0, .queueInLoop 1 7, .wakeup 1, .pollReturns, .handleReadWakeup, .eventsHandled,
        .timersTicked, .swap, .runTask, .queueInLoop 0 8, .wakeup 0, .taskReturns, .tasksReturn]
    Admissible step Enabled init events ∧ (run step init events).pendingTasks = [8]
      ∧ (0 < (run step init events).wakeupCount
          ∨ ∃ t, (run step init events).threadId ≠ some t
              ∧ (run step init events).waking t = true) := by
  intro events
  have hok : Admissible step Enabled init events := by decide
  obtain ⟨-, -, -, -, hsignal⟩ := no_task_lost events hok
  exact ⟨hok, rfl, hsignal rfl (by decide)⟩

end EventLoop

end LightNet.Core
