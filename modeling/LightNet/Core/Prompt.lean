/-
# LightNet.Core.Prompt — a task that a timer pushes.

The callback of a timer runs on the loop thread, so `queue_in_loop` does not write to the eventfd.  It need
not: the batch that is swapped out next holds the task, and before it has been executed no poll begins.
-/
import LightNet.Core.Pace

namespace LightNet.Core

open LightNet.Foundation

namespace Reactor

variable {T α : Type} [DecidableEq T] {slack limit busy₀ : Nat} {r : Reactor T α}

/-! ## What a step pushes and runs -/

/-- The task that a step pushes. -/
def pushes : ReactorStep T α → List α
  | .event (.queueInLoop _ task) => [task]
  | _ => []

theorem pushed_step (r : Reactor T α) (i : ReactorStep T α) :
    (r.step i).loop.pushed = r.loop.pushed ++ pushes i := by
  cases i with
  | elapse ms => exact (List.append_nil _).symm
  | event e =>
      cases e with
      | queueInLoop t task => rfl
      | runTask =>
          show r.loop.runTask.pushed = r.loop.pushed ++ []
          unfold EventLoop.runTask
          split <;> exact (List.append_nil _).symm
      | tasksReturn =>
          show (Reactor.head _).loop.pushed = r.loop.pushed ++ []
          unfold head
          split <;> exact (List.append_nil _).symm
      | loop _ | wakeup _ | pollReturns | handleReadWakeup | eventsHandled | timersTicked | swap
      | taskReturns => exact (List.append_nil _).symm
  | timer s => exact (List.append_nil _).symm
  | quit t =>
      show (r.quit t).loop.pushed = r.loop.pushed ++ []
      unfold quit
      dsimp only
      split <;> exact (List.append_nil _).symm
  | signal interrupts => exact (List.append_nil _).symm

theorem executed_step (r : Reactor T α) (i : ReactorStep T α) :
    r.loop.executed <+: (r.step i).loop.executed := by
  cases i with
  | elapse ms => exact List.prefix_refl _
  | event e =>
      cases e with
      | runTask =>
          show r.loop.executed <+: r.loop.runTask.executed
          unfold EventLoop.runTask
          split
          · exact List.prefix_append _ _
          · exact List.prefix_refl _
      | tasksReturn =>
          show r.loop.executed <+: (Reactor.head _).loop.executed
          unfold head
          split <;> exact List.prefix_refl _
      | loop _ | queueInLoop _ _ | wakeup _ | pollReturns | handleReadWakeup | eventsHandled
      | timersTicked | swap | taskReturns => exact List.prefix_refl _
  | timer s => exact List.prefix_refl _
  | quit t =>
      show r.loop.executed <+: (r.quit t).loop.executed
      unfold quit
      dsimp only
      split <;> exact List.prefix_refl _
  | signal interrupts => exact List.prefix_refl _

/-! ## Near the end of a round -/

/-- If the task waits, the next batch is still to be swapped out in this round. -/
def Near (x : α) (r : Reactor T α) : Prop :=
  x ∈ r.loop.pendingTasks → r.loop.phase = .timers ∨ r.loop.phase = .entering

omit [DecidableEq T] in
/-- In another phase of the loop it does not wait. -/
theorem Near.elsewhere {x : α} {r' : Reactor T α} (h : Near x r) (htimers : r.loop.phase ≠ .timers)
    (hentering : r.loop.phase ≠ .entering) (hpending : r'.loop.pendingTasks = r.loop.pendingTasks) :
    Near x r' := by
  intro hmem
  obtain hphase | hphase := h (hpending ▸ hmem)
  · exact absurd hphase htimers
  · exact absurd hphase hentering

theorem Near.event {x : α} {e : LoopEvent T α} (h : Near x r) (hok : r.Enabled slack (.event e))
    (hpush : x ∉ pushes (.event e : ReactorStep T α)) : Near x (r.event e) := by
  cases e with
  | queueInLoop t task =>
      intro hmem
      obtain hold | hnew := List.mem_append.mp hmem
      · exact h hold
      · exact absurd hnew hpush
  | wakeup t => exact h
  | handleReadWakeup => exact h
  | timersTicked => exact fun _ => .inr rfl
  | swap => exact fun hmem => absurd hmem List.not_mem_nil
  | loop t =>
      have hphase : r.loop.phase = .outside := hok.1
      exact h.elsewhere (by simp [hphase]) (by simp [hphase]) rfl
  | pollReturns =>
      have hphase : r.loop.phase = .poll := hok
      exact h.elsewhere (by simp [hphase]) (by simp [hphase]) rfl
  | eventsHandled =>
      have hphase : r.loop.phase = .events := hok.1.1
      exact h.elsewhere (by simp [hphase]) (by simp [hphase]) rfl
  | runTask =>
      obtain ⟨task, batch, hphase⟩ := hok
      refine h.elsewhere (by simp [hphase]) (by simp [hphase]) ?_
      show r.loop.runTask.pendingTasks = r.loop.pendingTasks
      rw [EventLoop.runTask, hphase]
  | taskReturns =>
      obtain ⟨⟨batch, hphase⟩, -⟩ := hok
      exact h.elsewhere (by simp [hphase]) (by simp [hphase]) rfl
  | tasksReturn =>
      have hphase : r.loop.phase = .between [] := hok
      refine h.elsewhere (by simp [hphase]) (by simp [hphase]) ?_
      show (Reactor.head _).loop.pendingTasks = r.loop.pendingTasks
      unfold head
      split <;> rfl

theorem Near.step {x : α} {i : ReactorStep T α} (h : Near x r) (hok : r.Enabled slack i)
    (hpush : x ∉ pushes i) : Near x (r.step i) := by
  cases i with
  | elapse ms => exact h
  | event e => exact h.event hok hpush
  | timer s => exact h
  | quit t =>
      have hpending : (r.quit t).loop.pendingTasks = r.loop.pendingTasks := by
        unfold quit
        dsimp only
        split <;> rfl
      show x ∈ (r.quit t).loop.pendingTasks → (r.quit t).loop.phase = .timers
        ∨ (r.quit t).loop.phase = .entering
      rw [hpending, phase_quit]
      exact h
  | signal interrupts => exact h

/-! ## In a hurry -/

/-- The task is on its way, and meanwhile the loop thread does not sleep. -/
structure Hurried (slack limit busy₀ : Nat) (x : α) (r : Reactor T α) : Prop where
  within : Within slack limit busy₀ False r
  near : Near x r

/-- No poll begins before it has been executed. -/
theorem Hurried.step {x : α} {i : ReactorStep T α} (h : Hurried slack limit busy₀ x r)
    (hinv : r.loop.Inv) (hpushed : x ∈ r.loop.pushed) (hwaits : x ∉ r.loop.executed)
    (hok : r.Enabled slack i) (hpush : x ∉ pushes i) : Hurried slack limit busy₀ x (r.step i) where
  within := by
    obtain ⟨ms, rfl⟩ | ⟨hnow, hbusy, hwake, hpolls⟩ | ⟨-, hmiss, -, hbatch, -⟩ := sleep_cases hok
    · exact h.within.elapse hok False.elim
    · exact h.within.stay hnow hbusy hwake hpolls id
    · rw [hinv.conserved, hbatch, List.append_nil, List.mem_append] at hpushed
      obtain hphase | hphase := h.near (hpushed.resolve_left hwaits)
      all_goals
        rw [hphase] at hmiss
        cases hmiss
  near := h.near.step hok hpush

end Reactor

end LightNet.Core
