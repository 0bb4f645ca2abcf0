/-
# LightNet.Coro.Task — the frames of `coro/task.h` and the tasks of `coro/scheduler.cpp`.

A coroutine is a frame: where its body is, and its promise.  `co_await` of a task stores the awaiting
frame as the continuation in the promise of the task's frame and goes over to that frame; when a body
ends, `final_suspend` goes over to the continuation, which takes the result out of the promise, or the
exception and throws it again, and then destroys the frame.  The scheduler keeps the tasks that have
been spawned and destroys the frames of those that are done.

All of this goes by handles, which are addresses.  A step that would use the handle of a frame that has
been destroyed, or resume a body that is not suspended, has no next state here.
-/
import LightNet.Foundation.Threads

namespace LightNet.Coro

open LightNet.Foundation

variable {σ ω ν ε : Type}

/-! ## Frames -/

/-- Where the body of a coroutine is. -/
inductive Body (σ ν ε : Type) where
  /-- At `initial_suspend`, or in an awaitable that has been given the handle. -/
  | suspended (pt : σ)
  | executing (pt : σ)
  /-- In `co_await` of the task with this frame. -/
  | awaiting (child : Nat) (k : Except ε ν → σ)
  /-- At `final_suspend`. -/
  | done

/-- `promise_type`; there is no result in the promise of a `Task<void>`. -/
structure Promise (ν ε : Type) where
  continuation : Option Nat
  exception : Option ε
  result : ν

namespace Promise

/-- `await_resume()` of the awaiter of a task: the exception is thrown again. -/
def outcome (p : Promise ν ε) : Except ε ν :=
  match p.exception with
  | some e => .error e
  | none => .ok p.result

/-- The promise of a coroutine that has not ended. -/
def pending [Inhabited ν] (continuation : Option Nat) : Promise ν ε where
  continuation := continuation
  exception := none
  result := default

end Promise

/-- A frame on the heap. -/
structure Frame (σ ν ε : Type) where
  body : Body σ ν ε
  promise : Promise ν ε

namespace Frame

/-- `handle.done()`. -/
def isDone (fr : Frame σ ν ε) : Bool :=
  match fr.body with
  | .done => true
  | _ => false

end Frame

/-! ## The heap -/

/-- The coroutines of one loop thread.  `held` are the handles that somebody will resume: awaitables,
and the closures in which `spawn` starts its tasks. -/
structure Coroutines (σ ω ν ε : Type) where
  world : ω
  frames : Nat → Option (Frame σ ν ε) := fun _ => none
  next : Nat := 0
  /-- The frame that executes. -/
  current : Option Nat := none
  /-- `alive_tasks()`. -/
  aliveTasks : List Nat := []
  held : List Nat := []

namespace Coroutines

/-- A frame is written. -/
def setFrame (m : Coroutines σ ω ν ε) (f : Nat) (fr : Frame σ ν ε) : Coroutines σ ω ν ε :=
  { m with frames := Function.update m.frames f (some fr) }

theorem frames_setFrame_self (m : Coroutines σ ω ν ε) (f : Nat) (fr : Frame σ ν ε) :
    (m.setFrame f fr).frames f = some fr := Function.update_self _ _ _

theorem frames_setFrame_ne {f g : Nat} (h : f ≠ g) (m : Coroutines σ ω ν ε) (fr : Frame σ ν ε) :
    (m.setFrame g fr).frames f = m.frames f := Function.update_of_ne h _ _

/-- `handle.destroy()`. -/
def destroy (m : Coroutines σ ω ν ε) (f : Nat) : Coroutines σ ω ν ε :=
  { m with frames := Function.update m.frames f none }

/-- `handle.resume()`, and the transfer of control to a handle. -/
def resumeHandle (m : Coroutines σ ω ν ε) (f : Nat) : Option (Coroutines σ ω ν ε) :=
  match m.frames f with
  | some ⟨.suspended pt, promise⟩ => some { m.setFrame f ⟨.executing pt, promise⟩ with current := some f }
  | some ⟨.awaiting child k, promise⟩ =>
      match m.frames child with
      | some fr =>
          -- the temporary task of the `co_await` is destroyed with its frame
          let m := m.setFrame f ⟨.executing (k fr.promise.outcome), promise⟩
          some { m.destroy child with current := some f }
      | none => none
  | _ => none

/-- `final_suspend()` of the frame `f`, with its promise as the body leaves it. -/
def finalSuspend (m : Coroutines σ ω ν ε) (f : Nat) (promise : Promise ν ε) :
    Option (Coroutines σ ω ν ε) :=
  let m := m.setFrame f ⟨.done, promise⟩
  match promise.continuation with
  | some p => m.resumeHandle p
  | none => some { m with current := none }

section Steps

variable [Inhabited ν]

/-! ## What happens to the frames -/

/-- The call of a coroutine makes its frame and suspends at once. -/
def create (m : Coroutines σ ω ν ε) (pt : σ) (continuation : Option Nat) : Coroutines σ ω ν ε :=
  { m.setFrame m.next ⟨.suspended pt, .pending continuation⟩ with next := m.next + 1 }

/-- What the frame `f` does at `pt`. -/
def execute (prog : Program σ ω ν ε) (m : Coroutines σ ω ν ε) (f : Nat) (pt : σ)
    (promise : Promise ν ε) : Option (Coroutines σ ω ν ε) :=
  match prog pt with
  | .ret v => m.finalSuspend f { promise with result := v }
  | .throw e => m.finalSuspend f { promise with exception := some e }
  | .act g => some { m.setFrame f ⟨.executing (g m.world).1, promise⟩ with world := (g m.world).2 }
  | .wait leave pt =>
      some { m.setFrame f ⟨.suspended pt, promise⟩ with
        world := leave f m.world
        held := m.held ++ [f]
        current := none }
  | .call callee k =>
      -- `await_ready` is false, since the task has not been started
      ((m.create callee (some f)).setFrame f ⟨.awaiting m.next k, promise⟩).resumeHandle m.next

/-- The coroutine that runs takes a step. -/
def tick (prog : Program σ ω ν ε) (m : Coroutines σ ω ν ε) : Option (Coroutines σ ω ν ε) :=
  match m.current with
  | none => some m
  | some f =>
      match m.frames f with
      | some ⟨.executing pt, promise⟩ => m.execute prog f pt promise
      | _ => none

/-- `Scheduler::spawn(loop, task)`, up to the closure that starts the task. -/
def spawn (m : Coroutines σ ω ν ε) (pt : σ) : Coroutines σ ω ν ε :=
  { m.create pt none with aliveTasks := m.aliveTasks ++ [m.next], held := m.held ++ [m.next] }

/-- The task in the frame `f` is done. -/
def doneAt (m : Coroutines σ ω ν ε) (f : Nat) : Bool := (m.frames f).any Frame.isDone

/-- `prune_completed_tasks()`: the task destroys its frame. -/
def pruneCompletedTasks (m : Coroutines σ ω ν ε) : Option (Coroutines σ ω ν ε) :=
  if ∀ f ∈ m.aliveTasks, (m.frames f).isSome then
    some { m with
      frames := fun f => if f ∈ m.aliveTasks ∧ m.doneAt f then none else m.frames f
      aliveTasks := m.aliveTasks.filter fun f => !m.doneAt f }
  else none

/-- What the event does.  If that would use a frame that is gone, there is no next state. -/
def step (prog : Program σ ω ν ε) (m : Coroutines σ ω ν ε) : PoolEvent σ ω → Option (Coroutines σ ω ν ε)
  | .spawn pt => some (m.spawn pt)
  | .resume h => { m with held := m.held.erase h }.resumeHandle h
  | .tick => m.tick prog
  | .prune => m.pruneCompletedTasks
  | .other f => some { m with world := f m.world }

end Steps

/-! ## Frames and threads -/

variable [Inhabited ν]

/-- The continuation in the promise of a coroutine with these callers. -/
def continuationOf (ks : Callers σ ν ε) : Option Nat := ks.head?.map Prod.fst

/-- Each caller is in the `co_await` of the frame that it has called. -/
def Await (frames : Nat → Option (Frame σ ν ε)) : Nat → Callers σ ν ε → Prop
  | _, [] => True
  | child, (p, k) :: ks =>
      frames p = some ⟨.awaiting child k, .pending (continuationOf ks)⟩ ∧ Await frames p ks

/-- The frames of a thread. -/
def Embodies (frames : Nat → Option (Frame σ ν ε)) : Thread σ ν ε → Prop
  | .running me pt ks =>
      frames me = some ⟨.executing pt, .pending (continuationOf ks)⟩ ∧ Await frames me ks
  | .waiting me pt ks =>
      frames me = some ⟨.suspended pt, .pending (continuationOf ks)⟩ ∧ Await frames me ks
  | .finished me o =>
      ∃ promise, frames me = some ⟨.done, promise⟩ ∧ promise.continuation = none
        ∧ promise.outcome = o

/-- The coroutines are the threads of the pool: the same world and the same handles, a frame for every
piece of every thread, and no other frame. -/
structure Represents (m : Coroutines σ ω ν ε) (s : Pool σ ω ν ε) : Prop where
  wf : s.Wf
  world_eq : m.world = s.world
  next_eq : m.next = s.next
  aliveTasks_eq : m.aliveTasks = s.names
  held_eq : m.held = s.held
  idle : s.current = none → m.current = none
  running : ∀ t me pt ks, s.threads t = some (.running me pt ks) → m.current = some me
  embodies : ∀ t th, s.threads t = some th → Embodies m.frames th
  live : ∀ f fr, m.frames f = some fr → ∃ t th, s.threads t = some th ∧ f ∈ th.pieces

end Coroutines

end LightNet.Coro
