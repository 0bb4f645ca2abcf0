/-
# LightNet.Core.Channel — the interest of a channel, and the poller it is passed on to.

`κ` stands for the channels that exist, as pointers; what a channel points to is in `channels`.  The
`Poller` of the loop is an interface with two implementations, so the calls of a channel are here for
any poller: `EpollPoller` and `IoUringPoller` instantiate them.
-/
import Mathlib.Logic.Function.Basic

namespace LightNet.Core

/-- `lightnet::Channel`, without its constant fd and its callbacks. -/
structure Channel where
  events : UInt32 := 0
  index : Int := -1
  addedToLoop : Bool := false
  deriving DecidableEq

namespace Channel

/-- Nothing is waited for. -/
def kNoneEvent : UInt32 := 0
/-- `EPOLLIN`. -/
def kReadEvent : UInt32 := 0x001
/-- `EPOLLOUT`. -/
def kWriteEvent : UInt32 := 0x004

/-- The events a registered channel waits for. -/
def registered (ch : Channel) : Option UInt32 := if 0 ≤ ch.index then some ch.events else none

end Channel

/-! ## The loop -/

/-- The channels of a loop, and its poller. -/
structure LoopState (κ P : Type) where
  channels : κ → Channel
  poller : P

namespace LoopState

variable {κ P : Type} [DecidableEq κ]

/-- A change of one channel. -/
def modify (s : LoopState κ P) (c : κ) (f : Channel → Channel) : LoopState κ P :=
  { s with channels := Function.update s.channels c (f (s.channels c)) }

@[simp] theorem modify_self (s : LoopState κ P) (c : κ) (f : Channel → Channel) :
    (s.modify c f).channels c = f (s.channels c) := Function.update_self _ _ _

@[simp] theorem modify_modify (s : LoopState κ P) (c : κ) (f g : Channel → Channel) :
    (s.modify c f).modify c g = s.modify c (g ∘ f) := by
  simp [modify]

/-- What each channel waits for. -/
def registered (s : LoopState κ P) (c : κ) : Option UInt32 := (s.channels c).registered

/-- Only the changed channel waits for something else. -/
theorem registered_update (channels : κ → Channel) (c : κ) (ch : Channel) (p : P) :
    registered ⟨Function.update channels c ch, p⟩
      = Function.update (fun d => (channels d).registered) c ch.registered := by
  funext d
  show (Function.update channels c ch d).registered = _
  by_cases hd : d = c
  · subst hd
    rw [Function.update_self, Function.update_self]
  · rw [Function.update_of_ne hd, Function.update_of_ne hd]

end LoopState

/-! ## The calls -/

/-- `lightnet::Poller`: what it does when a channel is registered, changed or released. -/
structure Poller (κ P : Type) where
  updateChannel : LoopState κ P → κ → LoopState κ P
  removeChannel : LoopState κ P → κ → LoopState κ P

/-- A call on a channel. -/
inductive ChannelCall (κ : Type) where
  | enableReading (c : κ)
  | disableReading (c : κ)
  | enableWriting (c : κ)
  | disableWriting (c : κ)
  | disableAll (c : κ)
  | remove (c : κ)
  deriving DecidableEq

/-- The channel that a call removes. -/
def ChannelCall.removed? {κ : Type} : ChannelCall κ → Option κ
  | remove c => some c
  | _ => none

namespace Poller

variable {κ P : Type} [DecidableEq κ]

/-- `Channel::update()`. -/
def update (p : Poller κ P) (s : LoopState κ P) (c : κ) : LoopState κ P :=
  p.updateChannel (s.modify c fun ch => { ch with addedToLoop := true }) c

/-- A change of `events_`, and `update()`. -/
def setEvents (p : Poller κ P) (f : UInt32 → UInt32) (s : LoopState κ P) (c : κ) : LoopState κ P :=
  p.update (s.modify c fun ch => { ch with events := f ch.events }) c

/-- `enable_reading()`. -/
def enableReading (p : Poller κ P) (s : LoopState κ P) (c : κ) : LoopState κ P :=
  p.setEvents (· ||| Channel.kReadEvent) s c

/-- `disable_reading()`. -/
def disableReading (p : Poller κ P) (s : LoopState κ P) (c : κ) : LoopState κ P :=
  p.setEvents (· &&& ~~~Channel.kReadEvent) s c

/-- `enable_writing()`. -/
def enableWriting (p : Poller κ P) (s : LoopState κ P) (c : κ) : LoopState κ P :=
  p.setEvents (· ||| Channel.kWriteEvent) s c

/-- `disable_writing()`. -/
def disableWriting (p : Poller κ P) (s : LoopState κ P) (c : κ) : LoopState κ P :=
  p.setEvents (· &&& ~~~Channel.kWriteEvent) s c

/-- `disable_all()`. -/
def disableAll (p : Poller κ P) (s : LoopState κ P) (c : κ) : LoopState κ P :=
  p.setEvents (fun _ => Channel.kNoneEvent) s c

/-- `Channel::remove()`.  Its assertion that the channel has been added is left out: where it would end
the run, the removal changes nothing that is registered. -/
def remove (p : Poller κ P) (s : LoopState κ P) (c : κ) : LoopState κ P :=
  p.removeChannel (s.modify c fun ch => { ch with addedToLoop := false }) c

/-- The call, on a loop with this poller. -/
def call (p : Poller κ P) (s : LoopState κ P) : ChannelCall κ → LoopState κ P
  | .enableReading c => p.enableReading s c
  | .disableReading c => p.disableReading s c
  | .enableWriting c => p.enableWriting s c
  | .disableWriting c => p.disableWriting s c
  | .disableAll c => p.disableAll s c
  | .remove c => p.remove s c

/-- Only what becomes of the events matters. -/
theorem setEvents_congr (p : Poller κ P) {f g : UInt32 → UInt32} {s : LoopState κ P} {c : κ}
    (h : f (s.channels c).events = g (s.channels c).events) : p.setEvents f s c = p.setEvents g s c := by
  rw [setEvents, setEvents, LoopState.modify, LoopState.modify, h]

/-- **A call changes the events of one channel, or removes it.** -/
theorem call_cases (p : Poller κ P) (s : LoopState κ P) (call : ChannelCall κ) :
    (∃ f c, p.call s call = p.setEvents f s c ∧ call.removed? = none)
      ∨ ∃ c, call = .remove c ∧ p.call s call = p.remove s c := by
  cases call with
  | enableReading c => exact .inl ⟨(· ||| Channel.kReadEvent), c, rfl, rfl⟩
  | disableReading c => exact .inl ⟨(· &&& ~~~Channel.kReadEvent), c, rfl, rfl⟩
  | enableWriting c => exact .inl ⟨(· ||| Channel.kWriteEvent), c, rfl, rfl⟩
  | disableWriting c => exact .inl ⟨(· &&& ~~~Channel.kWriteEvent), c, rfl, rfl⟩
  | disableAll c => exact .inl ⟨fun _ => Channel.kNoneEvent, c, rfl, rfl⟩
  | remove c => exact .inr ⟨c, rfl, rfl⟩

end Poller

end LightNet.Core
