/-
# LightNet.Net.UdpServer — the socket of `net/udp_server.cpp`.

`handle_read` reads datagrams until the socket has no more, until one is empty, or until `recvfrom`
fails.  `send_to` may be called on any thread: on the loop thread the datagram goes to the socket at once,
on another one a task takes it there.  The threads and the loop are those of `EventLoop`, whose `loop()`
does not return, and datagrams arrive at any time.

A socket that can be read is ready for poll, and poll reports it if there is room for it among the events:
it returns no more channels than `events_` has places, and none if it is interrupted.  So what one call of
`handle_read` has left is read in a later round; what it takes is that none of the calls of `recvfrom`
fails.
-/
import LightNet.Core.EventLoop
import LightNet.Net.SockAddr
import Mathlib.Data.List.Perm.Subperm

namespace LightNet.Net

open LightNet.Foundation LightNet.Core

/-- The size of the buffer that `recvfrom` reads into. -/
def kMaxDatagramSize : Nat := 65507

/-! ## Datagrams and calls -/

/-- A datagram, and the other side's address. -/
structure Datagram where
  peer : SockAddrIn
  data : Bytes
  deriving DecidableEq

/-- A datagram without data, which UDP allows. -/
def Datagram.isEmpty (d : Datagram) : Bool := d.data.isEmpty

/-- A call of `send_to`, with the thread that makes it. -/
structure SendCall (T : Type) where
  caller : T
  message : Datagram
  deriving DecidableEq

/-- What the server queues in the loop. -/
inductive UdpTask (T : Type) where
  | enableReading
  | sendTo (call : SendCall T)
  /-- A task of somebody else. -/
  | other
  deriving DecidableEq

/-- The datagram that the task takes to the socket. -/
def UdpTask.call? {T : Type} : UdpTask T → Option (SendCall T)
  | sendTo call => some call
  | _ => none

/-- How a call of `recvfrom` returns. -/
inductive RecvResult where
  | datagram
  | eintr
  | eagain
  | error

/-! ## The state -/

/-- The socket as `handle_read` sees it.  `arrived`, `taken` and `delivered` are the history of the run;
no step reads them. -/
structure UdpSocket where
  /-- The datagrams that can be read. -/
  received : List Datagram
  /-- Poll has reported the channel, and its callback is still to be called. -/
  active : Bool
  /-- `handle_read` runs. -/
  reading : Bool
  arrived : List Datagram
  /-- What has been read. -/
  taken : List Datagram
  /-- What the callback has been called with. -/
  delivered : List Datagram

/-- `lightnet::UdpServer` with its callback set, and its loop.  `called` and `sent` are history. -/
structure UdpServer (T : Type) where
  loop : EventLoop T (UdpTask T)
  socket : UdpSocket
  started : Bool
  /-- EPOLLIN is among the events of the channel. -/
  isReading : Bool
  /-- The calls of `send_to` that have something to send. -/
  called : List (SendCall T)
  /-- The calls of `sendto`. -/
  sent : List (SendCall T)

/-- What happens next: on the loop, in a thread that calls, at the socket, or in `handle_read`. -/
inductive UdpStep (T : Type) where
  | event (e : LoopEvent T (UdpTask T))
  /-- Poll returns, with or without room for the socket among the channels that it reports. -/
  | pollReturns (room : Bool)
  | start (t : T)
  | sendTo (call : SendCall T)
  /-- A datagram arrives at the socket. -/
  | arrive (d : Datagram)
  | handleRead
  /-- `recvfrom` in `handle_read`, and the call of the callback. -/
  | recvfrom (result : RecvResult)

/-- Poll returns, and has had room for the socket. -/
def UdpStep.looks {T : Type} : UdpStep T → Bool
  | .pollReturns room => room
  | _ => false

namespace UdpSocket

/-! ## The socket -/

/-- A socket that nothing has come to. -/
def init : UdpSocket where
  received := []
  active := false
  reading := false
  arrived := []
  taken := []
  delivered := []

/-- A datagram comes in. -/
def arrive (s : UdpSocket) (d : Datagram) : UdpSocket :=
  { s with received := s.received ++ [d], arrived := s.arrived ++ [d] }

/-- One round of the loop in `handle_read`. -/
def recvfrom (s : UdpSocket) : RecvResult → UdpSocket
  | .datagram =>
      match s.received with
      | [] => s
      | d :: received =>
          let s := { s with received := received, taken := s.taken ++ [d] }
          if d.isEmpty then { s with reading := false }
          else { s with delivered := s.delivered ++ [{ d with data := d.data.take kMaxDatagramSize }] }
  | .eintr => s
  | .eagain | .error => { s with reading := false }

theorem recvfrom_empty {s : UdpSocket} {d : Datagram} {received : List Datagram}
    (hreceived : s.received = d :: received) (hempty : d.isEmpty = true) :
    s.recvfrom .datagram = { s with received := received, taken := s.taken ++ [d], reading := false } := by
  simp only [recvfrom, hreceived, hempty, if_true]

theorem recvfrom_datagram {s : UdpSocket} {d : Datagram} {received : List Datagram}
    (hreceived : s.received = d :: received) (hempty : d.isEmpty = false) :
    s.recvfrom .datagram
      = { s with
          received := received
          taken := s.taken ++ [d]
          delivered := s.delivered ++ [{ d with data := d.data.take kMaxDatagramSize }] } := by
  simp only [recvfrom, hreceived, hempty, Bool.false_eq_true, if_false]

end UdpSocket

namespace UdpServer

variable {T : Type}

/-- A server that has not been started. -/
def init : UdpServer T where
  loop := .init
  socket := .init
  started := false
  isReading := false
  called := []
  sent := []

/-! ## The loop -/

/-- The bodies of the tasks. -/
def perform (s : UdpServer T) : UdpTask T → UdpServer T
  | .enableReading => { s with isReading := true }
  | .sendTo call => { s with sent := s.sent ++ [call] }
  | .other => s

variable [DecidableEq T]

/-- `loop_->run_in_loop`, called by thread `t`. -/
def runInLoop (s : UdpServer T) (t : T) (task : UdpTask T) : UdpServer T :=
  if s.loop.isInLoopThread t then s.perform task else { s with loop := s.loop.queueInLoop t task }

/-- `start()` on thread `t`. -/
def start (s : UdpServer T) (t : T) : UdpServer T :=
  if s.started then s else { s with started := true }.runInLoop t .enableReading

/-- `send_to(data, len, addr)` on the thread of the call. -/
def sendTo (s : UdpServer T) (call : SendCall T) : UdpServer T :=
  if call.message.isEmpty then s
  else { s with called := s.called ++ [call] }.runInLoop call.caller (.sendTo call)

/-- A step of the threads.  A task does its work when it is run. -/
def event (s : UdpServer T) (e : LoopEvent T (UdpTask T)) : UdpServer T :=
  match e, s.loop.phase with
  | .runTask, .between (task :: _) => { s with loop := s.loop.step e }.perform task
  | _, _ => { s with loop := s.loop.step e }

/-- Poll returns.  With room (and not interrupted) it reports the socket if there is something to read. -/
def pollReturns (s : UdpServer T) (room : Bool) : UdpServer T :=
  { s with
    loop := s.loop.step .pollReturns
    socket := { s.socket with active := room && s.isReading && !s.socket.received.isEmpty } }

/-- What the step does. -/
def step (s : UdpServer T) : UdpStep T → UdpServer T
  | .event e => s.event e
  | .pollReturns room => s.pollReturns room
  | .start t => s.start t
  | .sendTo call => s.sendTo call
  | .arrive d => { s with socket := s.socket.arrive d }
  | .handleRead => { s with socket := { s.socket with reading := true, active := false } }
  | .recvfrom result => { s with socket := s.socket.recvfrom result }

/-- Thread `t` runs code of the user.  The loop thread is in `loop()` from its call on. -/
def Calls (s : UdpServer T) (t : T) : Prop :=
  s.loop.waking t = false ∧ (s.loop.threadId = some t → s.loop.phase.runsUserCode = true)

/-- The step can be taken now.  All callbacks of the active channels are called in a round. -/
def Enabled (s : UdpServer T) : UdpStep T → Prop
  | .event .pollReturns => False
  | .pollReturns _ => s.loop.Enabled .pollReturns
  | .event .eventsHandled =>
      s.loop.Enabled .eventsHandled ∧ s.socket.active = false ∧ s.socket.reading = false
  | .event .handleReadWakeup => s.loop.Enabled .handleReadWakeup ∧ s.socket.reading = false
  | .event (.queueInLoop t task) => task = .other ∧ s.loop.Enabled (.queueInLoop t task)
  | .event e => s.loop.Enabled e
  | .start t => s.Calls t
  | .sendTo call => s.Calls call.caller
  | .arrive d => d.data.length ≤ kMaxDatagramSize
  | .handleRead => s.loop.phase = .events ∧ s.isReading = true ∧ s.socket.reading = false
  | .recvfrom .datagram => s.socket.reading = true ∧ s.socket.received ≠ []
  | .recvfrom .eagain => s.socket.reading = true ∧ s.socket.received = []
  | .recvfrom .eintr | .recvfrom .error => s.socket.reading = true

instance (s : UdpServer T) (t : T) : Decidable (s.Calls t) :=
  inferInstanceAs (Decidable (_ ∧ (_ → _)))

instance (s : UdpServer T) : (i : UdpStep T) → Decidable (s.Enabled i)
  | .event (.loop t) => inferInstanceAs (Decidable (s.loop.Enabled (.loop t)))
  | .event (.queueInLoop _ _) => inferInstanceAs (Decidable (_ ∧ _))
  | .event (.wakeup t) => inferInstanceAs (Decidable (s.loop.Enabled (.wakeup t)))
  | .event .pollReturns => inferInstanceAs (Decidable False)
  | .pollReturns _ => inferInstanceAs (Decidable (s.loop.Enabled .pollReturns))
  | .event .handleReadWakeup => inferInstanceAs (Decidable (_ ∧ _))
  | .event .eventsHandled => inferInstanceAs (Decidable (_ ∧ _ ∧ _))
  | .event .timersTicked => inferInstanceAs (Decidable (s.loop.Enabled .timersTicked))
  | .event .swap => inferInstanceAs (Decidable (s.loop.Enabled .swap))
  | .event .runTask => inferInstanceAs (Decidable (s.loop.Enabled .runTask))
  | .event .taskReturns => inferInstanceAs (Decidable (s.loop.Enabled .taskReturns))
  | .event .tasksReturn => inferInstanceAs (Decidable (s.loop.Enabled .tasksReturn))
  | .start t => inferInstanceAs (Decidable (s.Calls t))
  | .sendTo call => inferInstanceAs (Decidable (s.Calls call.caller))
  | .arrive _ => inferInstanceAs (Decidable (_ ≤ _))
  | .handleRead => inferInstanceAs (Decidable (_ ∧ _ ∧ _))
  | .recvfrom .datagram => inferInstanceAs (Decidable (_ ∧ _))
  | .recvfrom .eagain => inferInstanceAs (Decidable (_ ∧ _))
  | .recvfrom .eintr | .recvfrom .error => inferInstanceAs (Decidable (_ = _))

/-! ## Receiving -/

omit [DecidableEq T] in
@[simp] theorem perform_loop (s : UdpServer T) (task : UdpTask T) : (s.perform task).loop = s.loop := by
  cases task <;> rfl

omit [DecidableEq T] in
@[simp] theorem perform_socket (s : UdpServer T) (task : UdpTask T) :
    (s.perform task).socket = s.socket := by
  cases task <;> rfl

omit [DecidableEq T] in
theorem perform_isReading (s : UdpServer T) (task : UdpTask T) (h : s.isReading = true) :
    (s.perform task).isReading = true := by
  cases task with
  | enableReading => rfl
  | sendTo call => exact h
  | other => exact h

@[simp] theorem runInLoop_socket (s : UdpServer T) (t : T) (task : UdpTask T) :
    (s.runInLoop t task).socket = s.socket := by
  unfold runInLoop
  split
  · exact s.perform_socket task
  · rfl

@[simp] theorem runInLoop_phase (s : UdpServer T) (t : T) (task : UdpTask T) :
    (s.runInLoop t task).loop.phase = s.loop.phase := by
  unfold runInLoop
  split
  · rw [perform_loop]
  · rfl

theorem runInLoop_isReading (s : UdpServer T) (t : T) (task : UdpTask T) (h : s.isReading = true) :
    (s.runInLoop t task).isReading = true := by
  unfold runInLoop
  split
  · exact s.perform_isReading task h
  · exact h

/-- The threads take their step. -/
@[simp] theorem event_loop (s : UdpServer T) (e : LoopEvent T (UdpTask T)) :
    (s.event e).loop = s.loop.step e := by
  unfold event
  split
  · rw [perform_loop]
  · rfl

@[simp] theorem event_socket (s : UdpServer T) (e : LoopEvent T (UdpTask T)) :
    (s.event e).socket = s.socket := by
  unfold event
  split
  · rw [perform_socket]
  · rfl

theorem event_isReading (s : UdpServer T) (e : LoopEvent T (UdpTask T)) (h : s.isReading = true) :
    (s.event e).isReading = true := by
  unfold event
  split
  · exact perform_isReading _ _ h
  · exact h

theorem step_isReading {s : UdpServer T} (i : UdpStep T) (h : s.isReading = true) :
    (s.step i).isReading = true := by
  cases i with
  | event e => exact s.event_isReading e h
  | pollReturns room => exact h
  | start t =>
      show (s.start t).isReading = true
      unfold start
      split
      · exact h
      · exact runInLoop_isReading _ _ _ h
  | sendTo call =>
      show (s.sendTo call).isReading = true
      unfold sendTo
      split
      · exact h
      · exact runInLoop_isReading _ _ _ h
  | arrive d => exact h
  | handleRead => exact h
  | recvfrom result => exact h

/-! ## What a step does -/

/-- What a step does to the socket, and where the loop thread is. -/
theorem step_cases {s : UdpServer T} {i : UdpStep T} (hok : s.Enabled i) :
    (s.step i).socket = s.socket ∧ i.looks = false
        ∧ (s.socket.reading = true ∨ s.socket.active = true →
          s.loop.phase = .events → (s.step i).loop.phase = .events)
      ∨ (∃ room, i = .pollReturns room ∧ s.loop.phase = .poll)
      ∨ (∃ d, i = .arrive d) ∨ i = .handleRead ∨ ∃ result, i = .recvfrom result := by
  cases i with
  | event e =>
      refine .inl ⟨s.event_socket e, rfl, fun hreads hevents => ?_⟩
      have hphase : (s.step (.event e)).loop.phase = (s.loop.step e).phase :=
        congrArg EventLoop.phase (s.event_loop e)
      rw [hphase]
      cases e with
      | pollReturns => exact hok.elim
      | queueInLoop _ _ | wakeup _ | handleReadWakeup => exact hevents
      | eventsHandled =>
          obtain ⟨-, hactive, hreading⟩ := hok
          rcases hreads with hreads | hreads
          · exact absurd (hreading.symm.trans hreads) Bool.false_ne_true
          · exact absurd (hactive.symm.trans hreads) Bool.false_ne_true
      | loop t => exact absurd (hevents.symm.trans hok.1) (by simp)
      | timersTicked => exact absurd (hevents.symm.trans hok.1) (by simp)
      | swap => exact absurd (hevents.symm.trans hok) (by simp)
      | runTask =>
          obtain ⟨task, batch, hbefore⟩ := hok
          exact absurd (hevents.symm.trans hbefore) (by simp)
      | taskReturns =>
          obtain ⟨⟨batch, hbefore⟩, -⟩ := hok
          exact absurd (hevents.symm.trans hbefore) (by simp)
      | tasksReturn => exact absurd (hevents.symm.trans hok) (by simp)
  | pollReturns room => exact .inr (.inl ⟨room, rfl, hok⟩)
  | start t =>
      refine .inl ⟨?_, rfl, fun _ hevents => ?_⟩
      all_goals
        simp only [step, start]
        split
      · rfl
      · rw [runInLoop_socket]
      · exact hevents
      · rw [runInLoop_phase]
        exact hevents
  | sendTo call =>
      refine .inl ⟨?_, rfl, fun _ hevents => ?_⟩
      all_goals
        simp only [step, sendTo]
        split
      · rfl
      · rw [runInLoop_socket]
      · exact hevents
      · rw [runInLoop_phase]
        exact hevents
  | arrive d => exact .inr (.inr (.inl ⟨d, rfl⟩))
  | handleRead => exact .inr (.inr (.inr (.inl rfl)))
  | recvfrom result => exact .inr (.inr (.inr (.inr ⟨result, rfl⟩)))

/-! ## The account -/

/-- What is read, and when. -/
structure Receives (s : UdpServer T) : Prop where
  arrived_eq : s.socket.arrived = s.socket.taken ++ s.socket.received
  delivered_eq : s.socket.delivered = s.socket.taken.filter fun d => !d.isEmpty
  fits : ∀ d ∈ s.socket.received, d.data.length ≤ kMaxDatagramSize
  reads : s.socket.reading = true ∨ s.socket.active = true → s.loop.phase = .events

theorem Receives.recvfrom {s : UdpServer T} {result : RecvResult} (h : s.Receives)
    (hok : s.Enabled (.recvfrom result)) : (s.step (.recvfrom result)).Receives := by
  cases result with
  | datagram =>
      obtain ⟨hreading, hne⟩ := hok
      obtain ⟨d, received, hreceived⟩ := List.exists_cons_of_ne_nil hne
      have harrived : s.socket.arrived = s.socket.taken ++ [d] ++ received := by
        rw [h.arrived_eq, hreceived, List.append_assoc, List.singleton_append]
      have hfits : ∀ d' ∈ received, d'.data.length ≤ kMaxDatagramSize := fun d' hd' =>
        h.fits d' (hreceived ▸ List.mem_cons_of_mem d hd')
      cases hempty : d.isEmpty with
      | true =>
          refine ⟨?_, ?_, ?_, ?_⟩ <;>
            simp only [UdpServer.step, UdpSocket.recvfrom_empty hreceived hempty]
          · exact harrived
          · rw [List.filter_append, h.delivered_eq, List.filter_singleton, hempty]
            exact (List.append_nil _).symm
          · exact hfits
          · exact fun _ => h.reads (.inl hreading)
      | false =>
          have hwhole : { d with data := d.data.take kMaxDatagramSize } = d := by
            rw [List.take_of_length_le (h.fits d (hreceived ▸ List.mem_cons_self))]
          refine ⟨?_, ?_, ?_, ?_⟩ <;>
            simp only [UdpServer.step, UdpSocket.recvfrom_datagram hreceived hempty]
          · exact harrived
          · rw [List.filter_append, h.delivered_eq, List.filter_singleton, hempty, hwhole]
            rfl
          · exact hfits
          · exact fun _ => h.reads (.inl hreading)
  | eintr => exact h
  | eagain => exact ⟨h.arrived_eq, h.delivered_eq, h.fits, fun _ => h.reads (.inl hok.1)⟩
  | error => exact ⟨h.arrived_eq, h.delivered_eq, h.fits, fun _ => h.reads (.inl hok)⟩

theorem Receives.step {s : UdpServer T} {i : UdpStep T} (h : s.Receives) (hok : s.Enabled i) :
    (s.step i).Receives := by
  obtain ⟨hsocket, -, hphase⟩ | ⟨room, rfl, -⟩ | ⟨d, rfl⟩ | rfl | ⟨result, rfl⟩ := step_cases hok
  · refine ⟨?_, ?_, ?_, ?_⟩ <;> rw [hsocket]
    · exact h.arrived_eq
    · exact h.delivered_eq
    · exact h.fits
    · exact fun hreads => hphase hreads (h.reads hreads)
  · exact ⟨h.arrived_eq, h.delivered_eq, h.fits, fun _ => rfl⟩
  · refine ⟨?_, h.delivered_eq, ?_, h.reads⟩
    · show s.socket.arrived ++ [d] = s.socket.taken ++ (s.socket.received ++ [d])
      rw [h.arrived_eq, List.append_assoc]
    · intro d' hd'
      obtain hd' | hd' := List.mem_append.mp hd'
      · exact h.fits d' hd'
      · rw [List.mem_singleton.mp hd']
        exact hok
  · exact ⟨h.arrived_eq, h.delivered_eq, h.fits, fun _ => hok.1⟩
  · exact h.recvfrom hok

omit [DecidableEq T] in
theorem init_receives : (init : UdpServer T).Receives where
  arrived_eq := rfl
  delivered_eq := rfl
  fits _ hd := absurd hd List.not_mem_nil
  reads h := by
    rcases h with h | h <;> exact absurd h Bool.false_ne_true

/-! ## Rounds -/

/-- Of the datagrams that have arrived, those in `due` have been read, or for each of the `looks` of poll
at the socket, but for the last, an empty datagram has been read: `empties` of them had been before. -/
structure CatchesUp (due : List Datagram) (looks empties : Nat) (s : UdpServer T) : Prop where
  receives : s.Receives
  isReading : s.isReading = true
  arrived : due <+: s.socket.arrived
  behind : ¬ due <+: s.socket.taken →
    looks + empties ≤ s.socket.taken.countP Datagram.isEmpty + 1
  /-- The callback of the channel has returned. -/
  returned : s.socket.active = false → s.socket.reading = false →
    ¬ due <+: s.socket.taken → looks + empties ≤ s.socket.taken.countP Datagram.isEmpty

omit [DecidableEq T] in
/-- Everything has been read. -/
theorem CatchesUp.taken {due : List Datagram} {looks empties : Nat} {s : UdpServer T}
    (h : CatchesUp due looks empties s) (hreceived : s.socket.received = []) :
    due <+: s.socket.taken := by
  have harrived := h.arrived
  rwa [h.receives.arrived_eq, hreceived, List.append_nil] at harrived

theorem CatchesUp.recvfrom {due : List Datagram} {looks empties : Nat} {s : UdpServer T}
    {result : RecvResult} (h : CatchesUp due looks empties s) (hok : s.Enabled (.recvfrom result))
    (herror : result ≠ .error) : CatchesUp due looks empties (s.step (.recvfrom result)) := by
  have hreceives := h.receives.step hok
  cases result with
  | datagram =>
      obtain ⟨hreading, hne⟩ := hok
      obtain ⟨d, received, hreceived⟩ := List.exists_cons_of_ne_nil hne
      have hearlier : ¬ due <+: s.socket.taken ++ [d] → ¬ due <+: s.socket.taken := fun hbehind hdue =>
        hbehind (hdue.trans (List.prefix_append _ _))
      cases hempty : d.isEmpty with
      | true =>
          have hcount : (s.socket.taken ++ [d]).countP Datagram.isEmpty
              = s.socket.taken.countP Datagram.isEmpty + 1 := by
            rw [List.countP_append, List.countP_singleton, if_pos hempty]
          refine ⟨hreceives, h.isReading, ?_, ?_, ?_⟩ <;>
            simp only [UdpServer.step, UdpSocket.recvfrom_empty hreceived hempty]
          · exact h.arrived
          · intro hbehind
            have hlate := h.behind (hearlier hbehind)
            omega
          · intro _ _ hbehind
            have hlate := h.behind (hearlier hbehind)
            omega
      | false =>
          have hcount : (s.socket.taken ++ [d]).countP Datagram.isEmpty
              = s.socket.taken.countP Datagram.isEmpty := by
            rw [List.countP_append, List.countP_singleton, if_neg (by rw [hempty]; decide), Nat.add_zero]
          refine ⟨hreceives, h.isReading, ?_, ?_, ?_⟩ <;>
            simp only [UdpServer.step, UdpSocket.recvfrom_datagram hreceived hempty]
          · exact h.arrived
          · intro hbehind
            have hlate := h.behind (hearlier hbehind)
            omega
          · intro _ hreturned
            exact absurd (hreturned.symm.trans hreading) Bool.false_ne_true
  | eintr => exact ⟨hreceives, h.isReading, h.arrived, h.behind, h.returned⟩
  | eagain =>
      have hall := h.taken hok.2
      exact ⟨hreceives, h.isReading, h.arrived, fun hbehind => absurd hall hbehind,
        fun _ _ hbehind => absurd hall hbehind⟩
  | error => exact absurd rfl herror

/-- Poll returns: the callback of the round before has returned. -/
theorem CatchesUp.pollReturns {due : List Datagram} {looks empties : Nat} {s : UdpServer T} {room : Bool}
    (h : CatchesUp due looks empties s) (hpoll : s.loop.phase = .poll)
    (hreceives : (s.pollReturns room).Receives) :
    CatchesUp due (looks + if room then 1 else 0) empties (s.pollReturns room) := by
  have hquiet : s.socket.active = false ∧ s.socket.reading = false := by
    have hno : ¬ (s.socket.reading = true ∨ s.socket.active = true) := fun hreads =>
      absurd ((h.receives.reads hreads).symm.trans hpoll) (by simp)
    simpa only [not_or, Bool.not_eq_true, and_comm] using hno
  have hreturned := h.returned hquiet.1 hquiet.2
  refine ⟨hreceives, h.isReading, h.arrived, fun hbehind => ?_, fun hactive _ hbehind => ?_⟩
  · have hcount := hreturned hbehind
    show looks + (if room then 1 else 0) + empties ≤ s.socket.taken.countP Datagram.isEmpty + 1
    split <;> omega
  · cases room with
    | false => exact hreturned hbehind
    | true =>
        have hactive : (s.isReading && !s.socket.received.isEmpty) = false := hactive
        rw [h.isReading, Bool.true_and, Bool.not_eq_false', List.isEmpty_iff] at hactive
        exact absurd (h.taken hactive) hbehind

theorem CatchesUp.step {due : List Datagram} {looks empties : Nat} {s : UdpServer T} {i : UdpStep T}
    (h : CatchesUp due looks empties s) (hok : s.Enabled i) (herror : i ≠ .recvfrom .error) :
    CatchesUp due (looks + if i.looks then 1 else 0) empties (s.step i) := by
  have hreceives := h.receives.step hok
  have hisReading := step_isReading i h.isReading
  obtain ⟨hsocket, hlooks, -⟩ | ⟨room, rfl, hpoll⟩ | ⟨d, rfl⟩ | rfl | ⟨result, rfl⟩ := step_cases hok
  · rw [hlooks]
    refine ⟨hreceives, hisReading, ?_, ?_, ?_⟩ <;> rw [hsocket]
    · exact h.arrived
    · exact h.behind
    · exact h.returned
  · exact h.pollReturns hpoll hreceives
  · exact ⟨hreceives, hisReading, h.arrived.trans (List.prefix_append _ _), h.behind, h.returned⟩
  · refine ⟨hreceives, hisReading, h.arrived, h.behind, ?_⟩
    intro _ hreturned
    exact absurd hreturned.symm Bool.false_ne_true
  · exact h.recvfrom hok fun hfails => herror (by rw [hfails])

theorem catchesUp_run {due : List Datagram} {looks empties : Nat} {s : UdpServer T}
    {steps : List (UdpStep T)} (h : CatchesUp due looks empties s)
    (hok : Admissible step Enabled s steps) (herror : ∀ i ∈ steps, i ≠ .recvfrom .error) :
    CatchesUp due (looks + steps.countP UdpStep.looks) empties (run step s steps) := by
  induction steps generalizing looks s with
  | nil => exact h
  | cons i steps ih =>
      have hnext := h.step hok.1 (herror i List.mem_cons_self)
      have hrest := ih hnext hok.2 fun j hj => herror j (List.mem_cons_of_mem i hj)
      rw [List.countP_cons, run_cons]
      rwa [show looks + (steps.countP UdpStep.looks + if i.looks = true then 1 else 0)
        = (looks + if i.looks = true then 1 else 0) + steps.countP UdpStep.looks by omega]

/-! ## Every datagram -/

/-- **No datagram stays behind.** In every interleaving the callback is called with the datagrams that
have been read, each once, in order and whole, but for the empty ones, and those that have not been read
wait in the socket.  Once the server reads, and as long as `recvfrom` does not fail, whatever has arrived
has been handed over when poll has returned, with room for the socket, two times more than there are
empty datagrams among what waits. -/
theorem datagrams_delivered (before after : List (UdpStep T))
    (hok : Admissible step Enabled init (before ++ after)) :
    let s₀ : UdpServer T := run step init before
    let s₁ := run step s₀ after
    s₁.socket.arrived = s₁.socket.taken ++ s₁.socket.received
      ∧ s₁.socket.delivered = s₁.socket.taken.filter (fun d => !d.isEmpty)
      ∧ (s₀.isReading = true → (∀ i ∈ after, i ≠ .recvfrom .error) →
          s₀.socket.received.countP Datagram.isEmpty + 2 ≤ after.countP UdpStep.looks →
          s₀.socket.arrived.filter (fun d => !d.isEmpty) <+: s₁.socket.delivered) := by
  intro s₀ s₁
  obtain ⟨hbefore, hafter⟩ := admissible_append.mp hok
  have hstep : ∀ (s : UdpServer T) i, s.Receives → s.Enabled i → (s.step i).Receives :=
    fun _ _ h hok => h.step hok
  have h₀ : s₀.Receives := run_invariant hstep init_receives hbefore
  have h₁ : s₁.Receives := run_invariant hstep h₀ hafter
  refine ⟨h₁.arrived_eq, h₁.delivered_eq, fun hreading herror hlooks => ?_⟩
  have hstart : CatchesUp s₀.socket.arrived 0 (s₀.socket.taken.countP Datagram.isEmpty) s₀ :=
    ⟨h₀, hreading, List.prefix_refl _, fun _ => by omega, fun _ _ _ => by omega⟩
  have hend := catchesUp_run hstart hafter herror
  have hdue : s₀.socket.arrived <+: s₁.socket.taken := by
    by_contra hbehind
    have hlate : 0 + after.countP UdpStep.looks + s₀.socket.taken.countP Datagram.isEmpty
        ≤ s₁.socket.taken.countP Datagram.isEmpty + 1 := hend.behind hbehind
    -- what has been read is part of what had arrived
    have hpart : s₁.socket.taken <+: s₀.socket.arrived := by
      have htaken : s₁.socket.taken <+: s₁.socket.arrived := by
        rw [h₁.arrived_eq]
        exact List.prefix_append _ _
      exact (List.prefix_or_prefix_of_prefix hend.arrived htaken).resolve_left hbehind
    have hcount := hpart.sublist.countP_le (p := Datagram.isEmpty)
    rw [h₀.arrived_eq, List.countP_append] at hcount
    omega
  rw [h₁.delivered_eq]
  exact hdue.filter _

/-- An empty datagram between two others ends the first call of `handle_read`, and one poll has no room for
the socket. -/
theorem datagrams_delivered_sample :
    let peer : SockAddrIn := ⟨127, 0, 0, 1, 9⟩
    let before : List (UdpStep Nat) :=
      [.start 0, .event (.wakeup 0), .event (.loop 0), .pollReturns true, .event .handleReadWakeup,
        .event .eventsHandled, .event .timersTicked, .event .swap, .event .runTask,
        .event .taskReturns, .event .tasksReturn, .arrive ⟨peer, [7]⟩, .arrive ⟨peer, []⟩,
        .arrive ⟨peer, [8]⟩]
    let after : List (UdpStep Nat) :=
      [.pollReturns true, .handleRead, .recvfrom .datagram, .recvfrom .datagram,
        .event .eventsHandled, .event .timersTicked, .event .swap, .event .tasksReturn,
        .pollReturns false, .event .eventsHandled, .event .timersTicked, .event .swap,
        .event .tasksReturn, .pollReturns true, .handleRead, .recvfrom .eintr, .recvfrom .datagram,
        .recvfrom .eagain, .event .eventsHandled, .event .timersTicked, .event .swap,
        .event .tasksReturn, .pollReturns true]
    Admissible step Enabled init (before ++ after)
      ∧ [⟨peer, [7]⟩, ⟨peer, [8]⟩] <+: (run step init (before ++ after)).socket.delivered := by
  intro peer before after
  have hok : Admissible step Enabled init (before ++ after) := by decide
  have herror : ∀ i ∈ after, i ≠ .recvfrom .error := by
    simp [after]
  have hdelivered := (datagrams_delivered before after hok).2.2 rfl herror (by decide)
  rw [run_append]
  exact ⟨hok, hdelivered⟩

/-! ## Sending -/

/-- The calls of `send_to` that are still queued in the loop. -/
def waiting (s : UdpServer T) : List (SendCall T) :=
  (s.loop.phase.batch ++ s.loop.pendingTasks).filterMap UdpTask.call?

/-- The calls that thread `t` makes. -/
def callsOf (t : T) (calls : List (SendCall T)) : List (SendCall T) :=
  calls.filter fun call => call.caller = t

omit [DecidableEq T] in
theorem perform_sends (s : UdpServer T) (task : UdpTask T) :
    (s.perform task).called = s.called ∧ (s.perform task).sent = s.sent ++ task.call?.toList
      ∧ (s.perform task).waiting = s.waiting := by
  refine ⟨?_, ?_, ?_⟩
  · cases task <;> rfl
  · cases task with
    | sendTo call => rfl
    | enableReading => exact (List.append_nil _).symm
    | other => exact (List.append_nil _).symm
  · rw [waiting, waiting, perform_loop]

theorem waiting_queueInLoop (s : UdpServer T) (t : T) (task : UdpTask T) :
    ({ s with loop := s.loop.queueInLoop t task } : UdpServer T).waiting
      = s.waiting ++ task.call?.toList := by
  have hone : [task].filterMap UdpTask.call? = task.call?.toList := by
    cases task <;> rfl
  show (s.loop.phase.batch ++ (s.loop.pendingTasks ++ [task])).filterMap UdpTask.call? = _
  rw [← List.append_assoc, List.filterMap_append, hone, waiting]

/-- The loop thread takes a datagram to the socket itself, and everybody else queues it. -/
theorem runInLoop_sends (s : UdpServer T) (t : T) (task : UdpTask T) :
    (s.runInLoop t task).called = s.called ∧ (s.runInLoop t task).loop.threadId = s.loop.threadId
      ∧ (s.loop.threadId = some t ∧ (s.runInLoop t task).sent = s.sent ++ task.call?.toList
            ∧ (s.runInLoop t task).waiting = s.waiting
          ∨ (s.runInLoop t task).sent = s.sent
            ∧ (s.runInLoop t task).waiting = s.waiting ++ task.call?.toList) := by
  unfold runInLoop
  split
  · rename_i hself
    obtain ⟨hcalled, hsent, hwaiting⟩ := s.perform_sends task
    refine ⟨hcalled, by rw [perform_loop], .inl ⟨?_, hsent, hwaiting⟩⟩
    exact of_decide_eq_true hself
  · exact ⟨rfl, rfl, .inr ⟨rfl, s.waiting_queueInLoop t task⟩⟩

/-! ## The account of the calls -/

/-- Every call has gone to the socket or waits; the calls of one thread do so in order, but for the
thread that runs the loop. -/
structure Sends (s : UdpServer T) : Prop where
  outside : s.loop.phase = .outside → s.loop.threadId = none
  perm : s.called.Perm (s.sent ++ s.waiting)
  order : ∀ t, s.loop.threadId ≠ some t → callsOf t s.called = callsOf t (s.sent ++ s.waiting)

/-- A task that sends nothing is queued or done. -/
theorem Sends.runInLoop {s : UdpServer T} (h : s.Sends) (t : T) {task : UdpTask T}
    (hnone : task.call? = none) : (s.runInLoop t task).Sends := by
  obtain ⟨hcalled, hthread, hgoes⟩ := s.runInLoop_sends t task
  have hsame : (s.runInLoop t task).sent ++ (s.runInLoop t task).waiting = s.sent ++ s.waiting := by
    rw [hnone, Option.toList_none, List.append_nil, List.append_nil] at hgoes
    obtain ⟨-, hsent, hwaiting⟩ | ⟨hsent, hwaiting⟩ := hgoes <;> rw [hsent, hwaiting]
  refine ⟨?_, ?_, ?_⟩
  · rw [runInLoop_phase, hthread]
    exact h.outside
  · rw [hcalled, hsame]
    exact h.perm
  · rw [hcalled, hsame, hthread]
    exact h.order

theorem Sends.sendTo {s : UdpServer T} (h : s.Sends) (call : SendCall T) : (s.sendTo call).Sends := by
  unfold UdpServer.sendTo
  split
  · exact h
  · set s' : UdpServer T := { s with called := s.called ++ [call] } with hs'
    obtain ⟨hcalled, hthread, hgoes⟩ := s'.runInLoop_sends call.caller (.sendTo call)
    refine ⟨?_, ?_, fun t ht => ?_⟩
    · rw [runInLoop_phase, hthread]
      exact h.outside
    · rw [hcalled]
      have hperm : (s.called ++ [call]).Perm (s.sent ++ s.waiting ++ [call]) := h.perm.append_right _
      obtain ⟨-, hsent, hwaiting⟩ | ⟨hsent, hwaiting⟩ := hgoes <;> rw [hsent, hwaiting]
      · refine hperm.trans ?_
        rw [List.append_assoc, List.append_assoc]
        exact List.perm_append_comm.append_left s.sent
      · rwa [← List.append_assoc]
    · rw [hthread] at ht
      rw [hcalled]
      have horder : callsOf t (s.called ++ [call]) = callsOf t (s.sent ++ s.waiting ++ [call]) := by
        rw [callsOf, callsOf, List.filter_append, List.filter_append]
        exact congrArg (· ++ _) (h.order t ht)
      obtain ⟨hself, hsent, hwaiting⟩ | ⟨hsent, hwaiting⟩ := hgoes <;> rw [hsent, hwaiting]
      · -- the loop thread may overtake what it queued before it ran the loop
        have hother : callsOf t [call] = [] := by
          have hne : decide (call.caller = t) = false := by
            refine decide_eq_false ?_
            rintro rfl
            exact ht hself
          rw [callsOf, List.filter_singleton, hne]
          rfl
        show callsOf t (s.called ++ [call]) = callsOf t (s.sent ++ [call] ++ s.waiting)
        rw [horder]
        simp only [callsOf, List.filter_append] at hother ⊢
        rw [hother, List.append_nil, List.append_nil]
      · rw [← List.append_assoc]
        exact horder

omit [DecidableEq T] in
/-- A batch is taken from the queue as it is. -/
theorem waiting_congr {s s' : UdpServer T}
    (h : s'.loop.phase.batch ++ s'.loop.pendingTasks = s.loop.phase.batch ++ s.loop.pendingTasks) :
    s'.waiting = s.waiting := congrArg (List.filterMap UdpTask.call?) h

theorem event_runTask {s : UdpServer T} {task : UdpTask T} {batch : List (UdpTask T)}
    (hphase : s.loop.phase = .between (task :: batch)) :
    s.event .runTask = { s with loop := s.loop.step .runTask }.perform task := by
  simp only [event, hphase]

/-- A call that is sent has waited. -/
theorem event_sends {s : UdpServer T} {e : LoopEvent T (UdpTask T)} (hok : s.Enabled (.event e)) :
    (s.event e).called = s.called ∧ (s.event e).sent ++ (s.event e).waiting = s.sent ++ s.waiting := by
  cases e with
  | loop t =>
      refine ⟨rfl, congrArg (s.sent ++ ·) (waiting_congr ?_)⟩
      rw [show s.loop.phase = .outside from hok.1]
      rfl
  | queueInLoop t task =>
      obtain ⟨rfl, -⟩ := hok
      refine ⟨rfl, congrArg (s.sent ++ ·) ?_⟩
      exact (s.waiting_queueInLoop t .other).trans (List.append_nil _)
  | wakeup t => exact ⟨rfl, rfl⟩
  | pollReturns => exact hok.elim
  | handleReadWakeup => exact ⟨rfl, rfl⟩
  | eventsHandled =>
      refine ⟨rfl, congrArg (s.sent ++ ·) (waiting_congr ?_)⟩
      rw [show s.loop.phase = .events from hok.1.1]
      rfl
  | timersTicked =>
      refine ⟨rfl, congrArg (s.sent ++ ·) (waiting_congr ?_)⟩
      rw [show s.loop.phase = .timers from hok.1]
      rfl
  | swap =>
      refine ⟨rfl, congrArg (s.sent ++ ·) (waiting_congr ?_)⟩
      rw [show s.loop.phase = .entering from hok]
      exact List.append_nil _
  | runTask =>
      obtain ⟨task, batch, hphase⟩ := hok
      obtain ⟨hcalled, hsent, hwaiting⟩ :=
        perform_sends { s with loop := s.loop.step .runTask } task
      rw [event_runTask hphase]
      refine ⟨hcalled, ?_⟩
      rw [hsent, hwaiting, List.append_assoc]
      refine congrArg (s.sent ++ ·) ?_
      have hrun : s.loop.step .runTask
          = { s.loop with phase := .inTask batch, executed := s.loop.executed ++ [task] } := by
        simp only [EventLoop.step, EventLoop.runTask, hphase]
      rw [waiting, waiting, hphase, hrun]
      cases task <;> rfl
  | taskReturns => exact ⟨rfl, rfl⟩
  | tasksReturn =>
      refine ⟨rfl, congrArg (s.sent ++ ·) (waiting_congr ?_)⟩
      rw [show s.loop.phase = .between [] from hok]
      rfl

theorem pollReturns_waiting {s : UdpServer T} (hpoll : s.loop.phase = .poll) (room : Bool) :
    (s.pollReturns room).waiting = s.waiting := by
  refine waiting_congr ?_
  rw [hpoll]
  rfl

/-- The loop has no thread before `loop()` is called, and keeps it. -/
theorem threadId_step {l : EventLoop T (UdpTask T)} {e : LoopEvent T (UdpTask T)}
    (h : l.phase = .outside → l.threadId = none) (hok : l.Enabled e) :
    ((l.step e).phase = .outside → (l.step e).threadId = none)
      ∧ ∀ t, l.threadId = some t → (l.step e).threadId = some t := by
  cases e with
  | loop t =>
      refine ⟨fun hout => (by cases hout), fun t' ht' => ?_⟩
      exact absurd ((h hok.1).symm.trans ht') (by simp)
  | runTask =>
      obtain ⟨task, batch, hphase⟩ := hok
      simp only [EventLoop.step, EventLoop.runTask, hphase]
      exact ⟨fun hout => (by cases hout), fun _ ht => ht⟩
  | queueInLoop _ _ | wakeup _ | handleReadWakeup => exact ⟨h, fun _ ht => ht⟩
  | pollReturns | eventsHandled | timersTicked | swap | taskReturns | tasksReturn =>
      exact ⟨fun hout => (by cases hout), fun _ ht => ht⟩

/-! ## Every step keeps it -/

theorem Sends.event {s : UdpServer T} (h : s.Sends) {e : LoopEvent T (UdpTask T)}
    (hok : s.Enabled (.event e)) : (s.event e).Sends := by
  obtain ⟨hcalled, hsame⟩ := event_sends hok
  have hloop : s.loop.Enabled e := by
    cases e with
    | eventsHandled | handleReadWakeup => exact hok.1
    | queueInLoop _ _ => exact hok.2
    | pollReturns => exact hok.elim
    | loop _ | wakeup _ | timersTicked | swap | runTask | taskReturns | tasksReturn => exact hok
  obtain ⟨houtside, hthread⟩ := threadId_step h.outside hloop
  refine ⟨?_, ?_, ?_⟩
  · rw [event_loop]
    exact houtside
  · rw [hcalled, hsame]
    exact h.perm
  · intro t ht
    rw [event_loop] at ht
    rw [hcalled, hsame]
    exact h.order t fun hbefore => ht (hthread t hbefore)

theorem Sends.step {s : UdpServer T} {i : UdpStep T} (h : s.Sends) (hok : s.Enabled i) :
    (s.step i).Sends := by
  cases i with
  | event e => exact h.event hok
  | pollReturns room =>
      have hwaiting : (s.pollReturns room).waiting = s.waiting := pollReturns_waiting hok room
      refine ⟨fun hout => (by cases hout), ?_, ?_⟩ <;> simp only [UdpServer.step, hwaiting]
      · exact h.perm
      · exact h.order
  | start t =>
      show (s.start t).Sends
      unfold start
      split
      · exact h
      · have hstarted : Sends { s with started := true } := ⟨h.outside, h.perm, h.order⟩
        exact hstarted.runInLoop t rfl
  | sendTo call => exact h.sendTo call
  | arrive d => exact ⟨h.outside, h.perm, h.order⟩
  | handleRead => exact ⟨h.outside, h.perm, h.order⟩
  | recvfrom result => exact ⟨h.outside, h.perm, h.order⟩

theorem init_sends : (init : UdpServer T).Sends where
  outside _ := rfl
  perm := List.Perm.refl _
  order _ _ := rfl

/-! ## Batches -/

/-- What has been sent, and what the batch will send. -/
def going (s : UdpServer T) : List (SendCall T) :=
  s.sent ++ s.loop.phase.batch.filterMap UdpTask.call?

omit [DecidableEq T] in
theorem waiting_eq (s : UdpServer T) :
    s.sent ++ s.waiting = s.going ++ s.loop.pendingTasks.filterMap UdpTask.call? := by
  rw [waiting, going, List.filterMap_append, List.append_assoc]

theorem going_event {s : UdpServer T} {e : LoopEvent T (UdpTask T)} (hok : s.Enabled (.event e)) :
    s.going.Sublist (s.event e).going := by
  have hsame : (s.event e).loop.pendingTasks = s.loop.pendingTasks → s.going.Sublist (s.event e).going := by
    intro hpending
    have hsends := (event_sends hok).2
    rw [waiting_eq, waiting_eq, hpending] at hsends
    rw [List.append_cancel_right hsends]
  cases e with
  | queueInLoop t task => exact List.Sublist.refl _
  | swap =>
      refine List.Sublist.append (List.Sublist.refl _) ?_
      rw [show s.loop.phase = .entering from hok]
      exact List.nil_sublist _
  | runTask =>
      refine hsame ?_
      rw [event_loop]
      show s.loop.runTask.pendingTasks = _
      unfold EventLoop.runTask
      split <;> rfl
  | pollReturns => exact hok.elim
  | loop _ | wakeup _ | handleReadWakeup | eventsHandled | timersTicked | taskReturns | tasksReturn =>
      exact hsame rfl

theorem going_runInLoop (s : UdpServer T) (t : T) (task : UdpTask T) :
    s.going.Sublist (s.runInLoop t task).going := by
  obtain ⟨-, -, ⟨-, hsent, -⟩ | ⟨hsent, -⟩⟩ := s.runInLoop_sends t task
  · rw [going, going, hsent, runInLoop_phase]
    exact (List.sublist_append_left _ _).append_right _
  · rw [going, going, hsent, runInLoop_phase]

/-- No step takes a datagram back. -/
theorem going_step {s : UdpServer T} {i : UdpStep T} (hok : s.Enabled i) : s.going.Sublist (s.step i).going := by
  cases i with
  | event e => exact going_event hok
  | pollReturns room =>
      have hpoll : s.loop.phase = .poll := hok
      show s.going.Sublist (s.pollReturns room).going
      rw [going, going, hpoll]
      exact List.Sublist.refl _
  | start t =>
      show s.going.Sublist (s.start t).going
      unfold start
      split
      · exact List.Sublist.refl _
      · exact going_runInLoop { s with started := true } t .enableReading
  | sendTo call =>
      show s.going.Sublist (s.sendTo call).going
      unfold sendTo
      split
      · exact List.Sublist.refl _
      · exact going_runInLoop { s with called := s.called ++ [call] } call.caller (.sendTo call)
  | arrive d => exact List.Sublist.refl _
  | handleRead => exact List.Sublist.refl _
  | recvfrom result => exact List.Sublist.refl _

theorem going_run {s : UdpServer T} {steps : List (UdpStep T)} (hok : Admissible step Enabled s steps) :
    s.going.Sublist (run step s steps).going := by
  have hkeep : ∀ (s' : UdpServer T) (i : UdpStep T), s.going.Sublist s'.going → s'.Enabled i →
      s.going.Sublist (s'.step i).going := fun _ _ h hok => h.trans (going_step hok)
  exact run_invariant hkeep (List.Sublist.refl _) hok

/-! ## Every call -/

/-- **Each call sends once, in the order of its thread.** In every interleaving the calls of `send_to`
with something to send have gone to the socket or wait for the loop thread, each once.  The calls of one
thread do so in order, unless it is the thread that runs the loop.  What has been called when a batch is
swapped out has gone to the socket when the batch returns. -/
theorem sends_once (steps : List (UdpStep T)) (hok : Admissible step Enabled init steps) :
    let s : UdpServer T := run step init steps
    s.called.Perm (s.sent ++ s.waiting)
      ∧ (∀ t, s.loop.threadId ≠ some t → callsOf t s.called = callsOf t s.sent ++ callsOf t s.waiting)
      ∧ (∀ before during, steps = before ++ .event .swap :: (during ++ [.event .tasksReturn]) →
          (run step (init : UdpServer T) before).called.Subperm s.sent) := by
  intro s
  have hinv : ∀ (s : UdpServer T) i, s.Sends → s.Enabled i → (s.step i).Sends := fun _ _ h hok =>
    h.step hok
  have hsends : s.Sends := run_invariant hinv init_sends hok
  refine ⟨hsends.perm, fun t ht => ?_, ?_⟩
  · rw [hsends.order t ht]
    exact List.filter_append ..
  · intro before during hsteps
    rw [hsteps] at hok
    obtain ⟨hbefore, hswap, hrest⟩ := admissible_append.mp hok
    obtain ⟨hduring, hlast, -⟩ := admissible_append.mp hrest
    have hsends₀ := run_invariant hinv init_sends hbefore
    have hfront : (run step init before).sent ++ (run step (init : UdpServer T) before).waiting
        = ((run step init before).step (.event .swap)).going := by
      rw [waiting, show (run step (init : UdpServer T) before).loop.phase = .entering from hswap]
      rfl
    have hend : s = (run step ((run step init before).step (.event .swap)) during).step
        (.event .tasksReturn) := by
      show run step init steps = _
      rw [hsteps, run_append, run_cons, run_append]
      rfl
    have hback : (run step ((run step init before).step (.event .swap)) during).going = s.sent := by
      rw [going, show (run step ((run step init before).step (.event .swap)) during).loop.phase
        = .between [] from hlast, hend]
      exact List.append_nil _
    have hperm := hsends₀.perm
    have hgoing := going_run hduring
    rw [hfront] at hperm
    rw [hback] at hgoing
    exact hperm.subperm.trans hgoing.subperm

/-- Thread 1 sends before the loop runs, and the loop thread sends from a callback. -/
theorem sends_once_sample :
    let peer : SockAddrIn := ⟨127, 0, 0, 1, 9⟩
    let steps : List (UdpStep Nat) :=
      [.sendTo ⟨1, ⟨peer, [7]⟩⟩, .event (.wakeup 1), .event (.loop 0), .pollReturns true,
        .event .handleReadWakeup, .sendTo ⟨0, ⟨peer, [8]⟩⟩, .event .eventsHandled,
        .event .timersTicked, .event .swap, .event .runTask, .event .taskReturns,
        .event .tasksReturn]
    let s : UdpServer Nat := run step init steps
    Admissible step Enabled init steps
      ∧ s.sent = [⟨0, ⟨peer, [8]⟩⟩, ⟨1, ⟨peer, [7]⟩⟩]
      ∧ s.called.Perm (s.sent ++ s.waiting) := by
  intro peer steps s
  have hok : Admissible step Enabled init steps := by decide
  exact ⟨hok, by decide, (sends_once steps hok).1⟩

end UdpServer

end LightNet.Net
