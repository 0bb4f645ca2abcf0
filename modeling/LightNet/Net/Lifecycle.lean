/-
# LightNet.Net.Lifecycle — everything that can happen to one connection, in any order.

An `Act` is one entry into the connection: a callback of its channel, a call on the loop thread, a
coroutine that suspends, a call of another thread, or a closure such a call has queued.  User
callbacks are `Script`s: the calls one invocation makes, with the kernel's answers.  What a message
callback retrieves from the input buffer is an act of its own, since no call of a script looks at it.

`Life` adds two things to the connection: the closures that wait in `pending_tasks_`, and the
coroutines that have been registered and not yet scheduled.  The theorems at the end say once what an
act does to the waiting coroutines and to the number of closes; the later modules use nothing else.
-/
import LightNet.Net.Output

namespace LightNet.Net

open LightNet.Foundation LightNet.Core

/-! ## Callbacks -/

/-- The calls that one invocation of a user callback makes. -/
inductive Script where
  | done
  | send (data : Bytes) (r : WriteResult) (nested : Script) (rest : Script)
  | shutdown (rest : Script)
  | forceClose (rest : Script)
  deriving DecidableEq

namespace Script

/-- What the calls of the callback do to the connection. -/
def invoke : Script → TcpConnection → TcpConnection
  | done, c => c
  | send data r nested rest, c => rest.invoke (c.send data r nested.invoke)
  | shutdown rest, c => rest.invoke c.shutdown
  | forceClose rest, c => rest.invoke c.forceClose

/-- One of the calls reaches `handle_close`. -/
def Closes : Script → TcpConnection → Prop
  | done, _ => False
  | send data r nested rest, c =>
      (c.state = .kConnected
        ∧ (c.SendFails r ∨ (c.SendCompletes data r ∧ nested.Closes (c.wrote data))))
      ∨ rest.Closes (c.send data r nested.invoke)
  | shutdown rest, c => rest.Closes c.shutdown
  | forceClose rest, c =>
      (c.state = .kConnected ∨ c.state = .kConnecting) ∨ rest.Closes c.forceClose

/-- One of the calls reaches `::write`. -/
def Writes : Script → TcpConnection → Prop
  | done, _ => False
  | send data r nested rest, c =>
      (c.state = .kConnected ∧ c.TriesDirect) ∨ rest.Writes (c.send data r nested.invoke)
  | shutdown rest, c => rest.Writes c.shutdown
  | forceClose rest, c => rest.Writes c.forceClose

/-- A callback closes or not, call by call. -/
def Closes.decidable : (sc : Script) → (c : TcpConnection) → Decidable (sc.Closes c)
  | done, _ => isFalse id
  | send data r nested rest, c =>
      have := Closes.decidable nested (c.wrote data)
      have := Closes.decidable rest (c.send data r nested.invoke)
      inferInstanceAs (Decidable ((_ ∧ (_ ∨ (_ ∧ _))) ∨ _))
  | shutdown rest, c => Closes.decidable rest c.shutdown
  | forceClose rest, c =>
      have := Closes.decidable rest c.forceClose
      inferInstanceAs (Decidable (_ ∨ _))

instance (sc : Script) (c : TcpConnection) : Decidable (sc.Closes c) := Closes.decidable sc c

/-- A callback writes or not, call by call. -/
def Writes.decidable : (sc : Script) → (c : TcpConnection) → Decidable (sc.Writes c)
  | done, _ => isFalse id
  | send data r nested rest, c =>
      have := Writes.decidable rest (c.send data r nested.invoke)
      inferInstanceAs (Decidable ((_ ∧ _) ∨ _))
  | shutdown rest, c => Writes.decidable rest c.shutdown
  | forceClose rest, c => Writes.decidable rest c.forceClose

instance (sc : Script) (c : TcpConnection) : Decidable (sc.Writes c) := Writes.decidable sc c

end Script

/-! ## Reads and the closures of other threads -/

namespace TcpConnection

/-- `handle_read()` with a `message_callback_`. -/
def handleReadWith (c : TcpConnection) (r : ReadResult)
    (onMessage : TcpConnection → TcpConnection) : TcpConnection :=
  let (n, buf) := c.inputBuffer.readFd r.incoming
  let c := { c with inputBuffer := buf }
  if 0 < n then
    match c.readCoroPending, c.readCoro with
    | true, some h => { c with readCoroPending := false, readCoro := none }.scheduleCoro h
    | _, _ => onMessage c
  else if n = 0 then c.handleClose
  else if r.errno ≠ EAGAIN ∧ r.errno ≠ EWOULDBLOCK then c.handleError
  else c

/-- The closure of `shutdown()`. -/
def shutdownInLoop (c : TcpConnection) : TcpConnection :=
  let c := { c with state := .kDisconnecting }
  if c.isWriting then c else c.shutdownWrite

theorem shutdown_eq (c : TcpConnection) :
    c.shutdown = if c.state = .kConnected then c.shutdownInLoop else c := rfl

/-- `connect_destroyed()`. -/
def connectDestroyed (c : TcpConnection) : TcpConnection := { c with state := .kDisconnected }

/-- The second half of `AsyncWrite{conn, data, len}::await_suspend(h)`, after the send. -/
def awaitOutput (c : TcpConnection) (h : Coro) : TcpConnection :=
  if c.outputBuffer.readableBytes = 0 then c.scheduleCoro h else c.resumeWriteCoro h

/-- `co_await AsyncRead{conn, hint}` up to the suspension. -/
def awaitInput (c : TcpConnection) (h : Coro) (hint : Nat) : TcpConnection :=
  if c.asyncReadReady hint then c else c.asyncReadSuspend h

end TcpConnection

/-- A closure that a call from another thread queues on the loop. -/
inductive Closure where
  | send (data : Bytes)
  | shutdown
  | forceClose
  deriving DecidableEq

namespace Closure

/-- The state test in the caller's thread. -/
def Accepted (cl : Closure) (state : ConnectionState) : Prop :=
  match cl with
  | send _ | shutdown => state = .kConnected
  | forceClose => state = .kConnected ∨ state = .kConnecting

instance : (cl : Closure) → (state : ConnectionState) → Decidable (cl.Accepted state)
  | send _, _ | shutdown, _ => inferInstanceAs (Decidable (_ = _))
  | forceClose, _ => inferInstanceAs (Decidable (_ ∨ _))

/-- What runs on the loop. -/
def exec (cl : Closure) (c : TcpConnection) (r : WriteResult)
    (callback : TcpConnection → TcpConnection) : TcpConnection :=
  match cl with
  | send data => c.sendInLoop data r callback
  | shutdown => c.shutdownInLoop
  | forceClose => c.handleClose

end Closure

/-! ## The machine -/

/-- One entry into the connection. -/
inductive Act where
  | connectEstablished
  | connectDestroyed
  | handleClose
  | handleError
  | handleRead (r : ReadResult) (onMessage : Script)
  | handleWrite (r : WriteResult) (onComplete : Script)
  | send (data : Bytes) (r : WriteResult) (onComplete : Script)
  | shutdown
  | forceClose
  | retrieve (n : Nat)
  | readSome (r : ReadResult)
  | awaitInput (h : Coro) (hint : Nat)
  | awaitOutput (h : Coro)
  | post (cl : Closure)
  | runClosure (r : WriteResult) (onComplete : Script)
  deriving DecidableEq

/-- A connection, the closures queued for it, and the coroutines that wait to be scheduled. -/
structure Life where
  conn : TcpConnection := {}
  queue : List Closure := []
  waiting : List Coro := []

/-- The coroutine that a call leaves to the loop. -/
def Event.coro? : Event → Option Coro
  | .scheduleCoro h _ => some h
  | _ => none

namespace TcpConnection

/-- The coroutines passed to `schedule_coro`, in order. -/
def scheduled (c : TcpConnection) : List Coro := c.trace.filterMap Event.coro?

/-- How often `close_callback_` has run. -/
def closes (c : TcpConnection) : Nat := c.trace.count .closeCallback

/-- The coroutine that `handle_read` would resume. -/
def reader (c : TcpConnection) : Option Coro := if c.readCoroPending then c.readCoro else none

/-- The coroutine that `handle_write` would resume. -/
def writer (c : TcpConnection) : Option Coro := if c.writeCoroPending then c.writeCoro else none

end TcpConnection

namespace Life

/-- The connection after the act. -/
def onConn (s : Life) : Act → TcpConnection
  | .connectEstablished => s.conn.connectEstablished
  | .connectDestroyed => s.conn.connectDestroyed
  | .handleClose => s.conn.handleClose
  | .handleError => s.conn.handleError
  | .handleRead r onMessage => s.conn.handleReadWith r onMessage.invoke
  | .handleWrite r onComplete => s.conn.handleWrite r onComplete.invoke
  | .send data r onComplete => s.conn.send data r onComplete.invoke
  | .shutdown => s.conn.shutdown
  | .forceClose => s.conn.forceClose
  | .retrieve n => { s.conn with inputBuffer := s.conn.inputBuffer.retrieve n }
  | .readSome r => (s.conn.readSome r).2
  | .awaitInput h hint => s.conn.awaitInput h hint
  | .awaitOutput h => s.conn.awaitOutput h
  | .post _ => s.conn
  | .runClosure r onComplete =>
      match s.queue with
      | [] => s.conn
      | cl :: _ => cl.exec s.conn r onComplete.invoke

/-- The closures that wait after the act. -/
def onQueue (s : Life) : Act → List Closure
  | .post cl => if cl.Accepted s.conn.state then s.queue ++ [cl] else s.queue
  | .runClosure _ _ => s.queue.tail
  | _ => s.queue

/-- The coroutine that the act passes to `resume_read_coro` or `resume_write_coro`. -/
def registered (s : Life) : Act → List Coro
  | .awaitInput h hint =>
      if s.conn.asyncReadReady hint = true ∨ 0 < s.conn.inputBuffer.readableBytes then [] else [h]
  | .awaitOutput h => if s.conn.outputBuffer.readableBytes = 0 then [] else [h]
  | _ => []

/-- One act.  A coroutine waits from its registration until it is scheduled. -/
def act (s : Life) (a : Act) : Life where
  conn := s.onConn a
  queue := s.onQueue a
  waiting :=
    s.waiting.diff ((s.onConn a).scheduled.drop s.conn.scheduled.length) ++ s.registered a

/-- `handle_close` has run. -/
def Closed (s : Life) : Prop := 0 < s.conn.closes

instance (s : Life) : Decidable s.Closed := inferInstanceAs (Decidable (_ < _))

end Life

/-! ## Events -/

/-- There is something to read. -/
def EPOLLIN : UInt32 := 0x001
/-- There is urgent data. -/
def EPOLLPRI : UInt32 := 0x002
/-- There is room to write. -/
def EPOLLOUT : UInt32 := 0x004
/-- An error. -/
def EPOLLERR : UInt32 := 0x008
/-- Both ends are shut. -/
def EPOLLHUP : UInt32 := 0x010
/-- The peer's end is shut. -/
def EPOLLRDHUP : UInt32 := 0x2000

/-- `Channel::handle_event(revents)` with the four callbacks of the channel. -/
def handleEvent {σ : Type*} (revents : UInt32) (close error read write : σ → σ) (s : σ) : σ :=
  let s := if revents &&& EPOLLHUP ≠ 0 ∧ revents &&& EPOLLIN = 0 then close s else s
  let s := if revents &&& EPOLLERR ≠ 0 then error s else s
  let s := if revents &&& (EPOLLIN ||| EPOLLPRI ||| EPOLLRDHUP) ≠ 0 then read s else s
  if revents &&& EPOLLOUT ≠ 0 then write s else s

/-- The acts that an event is made of. -/
def dispatched (revents : UInt32) (rd : ReadResult) (onMessage : Script) (wr : WriteResult)
    (onComplete : Script) : List Act :=
  (if revents &&& EPOLLHUP ≠ 0 ∧ revents &&& EPOLLIN = 0 then [.handleClose] else [])
    ++ (if revents &&& EPOLLERR ≠ 0 then [.handleError] else [])
    ++ (if revents &&& (EPOLLIN ||| EPOLLPRI ||| EPOLLRDHUP) ≠ 0 then [.handleRead rd onMessage]
        else [])
    ++ (if revents &&& EPOLLOUT ≠ 0 then [.handleWrite wr onComplete] else [])

/-- **An event is the run of its acts**, whatever they act on. -/
theorem handleEvent_eq_run {σ : Type*} (step : σ → Act → σ) (s : σ) (revents : UInt32)
    (rd : ReadResult) (onMessage : Script) (wr : WriteResult) (onComplete : Script) :
    handleEvent revents (step · .handleClose) (step · .handleError)
        (step · (.handleRead rd onMessage)) (step · (.handleWrite wr onComplete)) s
      = run step s (dispatched revents rd onMessage wr onComplete) := by
  -- one optional act at a time
  have hopt : ∀ (s : σ) (p : Prop) [Decidable p] (a : Act),
      run step s (if p then [a] else []) = if p then step s a else s := by
    intro s p _ a
    split <;> rfl
  simp only [dispatched, run_append, hopt]
  rfl

/-! ## When an act closes -/

namespace TcpConnection

/-! ## What an act meets -/

/-- The connection once the kernel has taken `n` bytes and nothing is left to write. -/
def drained (c : TcpConnection) (n : Nat) : TcpConnection :=
  { c.wrote ((c.outputBuffer.peek c.outputBuffer.readableBytes).take n) with
    outputBuffer := c.outputBuffer.retrieve n }.disableWriting

/-- `handle_write` writes the last bytes. -/
def WritesLast (c : TcpConnection) (r : WriteResult) : Prop :=
  c.isWriting = true ∧ 0 < r.ret ∧ (c.outputBuffer.retrieve r.ret.toNat).readableBytes = 0

/-- `handle_write` meets an error. -/
def WriteFails (c : TcpConnection) (r : WriteResult) : Prop :=
  c.isWriting = true ∧ r.ret ≤ 0 ∧ r.errno ≠ EAGAIN ∧ r.errno ≠ EWOULDBLOCK

/-- `handle_read` meets the end of the stream or an error. -/
def ReadEnds (c : TcpConnection) (r : ReadResult) : Prop :=
  (c.inputBuffer.readFd r.incoming).1 = 0
    ∨ ((c.inputBuffer.readFd r.incoming).1 < 0 ∧ r.errno ≠ EAGAIN ∧ r.errno ≠ EWOULDBLOCK)

/-- `handle_read` gets some bytes. -/
def ReadsSome (c : TcpConnection) (r : ReadResult) : Prop :=
  0 < (c.inputBuffer.readFd r.incoming).1

/-- The connection with what `read_fd` delivers in its buffer. -/
def filled (c : TcpConnection) (r : ReadResult) : TcpConnection :=
  { c with inputBuffer := (c.inputBuffer.readFd r.incoming).2 }

/-- A send that reaches `send_in_loop` closes the connection. -/
def SendCloses (c : TcpConnection) (data : Bytes) (r : WriteResult) (onComplete : Script) : Prop :=
  c.SendFails r ∨ (c.SendCompletes data r ∧ onComplete.Closes (c.wrote data))

instance (c : TcpConnection) (r : WriteResult) : Decidable (c.WritesLast r) :=
  inferInstanceAs (Decidable (_ ∧ _ ∧ _))

instance (c : TcpConnection) (r : WriteResult) : Decidable (c.WriteFails r) :=
  inferInstanceAs (Decidable (_ ∧ _ ∧ _ ∧ _))

instance (c : TcpConnection) (r : ReadResult) : Decidable (c.ReadEnds r) :=
  inferInstanceAs (Decidable (_ ∨ (_ ∧ _ ∧ _)))

instance (c : TcpConnection) (r : ReadResult) : Decidable (c.ReadsSome r) :=
  inferInstanceAs (Decidable (_ < _))

instance (c : TcpConnection) (data : Bytes) (r : WriteResult) (onComplete : Script) :
    Decidable (c.SendCloses data r onComplete) :=
  inferInstanceAs (Decidable (_ ∨ (_ ∧ _)))

end TcpConnection

namespace Life

/-- The act reaches `handle_close`. -/
def Closes (s : Life) : Act → Prop
  | .handleClose | .handleError => True
  | .handleRead r onMessage =>
      s.conn.ReadEnds r
        ∨ (s.conn.ReadsSome r ∧ s.conn.reader = none ∧ onMessage.Closes (s.conn.filled r))
  | .handleWrite r onComplete =>
      s.conn.WriteFails r
        ∨ (s.conn.WritesLast r ∧ onComplete.Closes (s.conn.drained r.ret.toNat))
  | .send data r onComplete => s.conn.state = .kConnected ∧ s.conn.SendCloses data r onComplete
  | .forceClose => s.conn.state = .kConnected ∨ s.conn.state = .kConnecting
  | .runClosure r onComplete =>
      match s.queue with
      | .send data :: _ => s.conn.SendCloses data r onComplete
      | .forceClose :: _ => True
      | _ => False
  | _ => False

instance (s : Life) : (a : Act) → Decidable (s.Closes a)
  | .handleClose | .handleError => isTrue trivial
  | .handleRead _ _ => inferInstanceAs (Decidable (_ ∨ (_ ∧ _ ∧ _)))
  | .handleWrite _ _ => inferInstanceAs (Decidable (_ ∨ (_ ∧ _)))
  | .send _ _ _ => inferInstanceAs (Decidable (_ ∧ _))
  | .forceClose => inferInstanceAs (Decidable (_ ∨ _))
  | .runClosure r onComplete =>
      match h : s.queue with
      | .send data :: _ =>
          decidable_of_iff (s.conn.SendCloses data r onComplete) (by simp only [Closes, h])
      | .forceClose :: _ => isTrue (by simp only [Closes, h])
      | .shutdown :: _ => isFalse (by simp only [Closes, h, not_false_eq_true])
      | [] => isFalse (by simp only [Closes, h, not_false_eq_true])
  | .connectEstablished | .connectDestroyed | .shutdown | .retrieve _ | .readSome _
  | .awaitInput _ _ | .awaitOutput _ | .post _ => isFalse id

/-! ## What it lets go on -/

/-- The coroutine that the act passes to `schedule_coro`. -/
def released (s : Life) : Act → List Coro
  | .handleRead r _ => if s.conn.ReadsSome r then s.conn.reader.toList else []
  | .handleWrite r _ => if s.conn.WritesLast r then s.conn.writer.toList else []
  | .awaitInput h hint =>
      if s.conn.asyncReadReady hint = false ∧ 0 < s.conn.inputBuffer.readableBytes then [h] else []
  | .awaitOutput h => if s.conn.outputBuffer.readableBytes = 0 then [h] else []
  | _ => []

/-- The coroutine that waits for input after the act. -/
def readerAfter (s : Life) : Act → Option Coro
  | .handleRead r _ => if s.conn.ReadsSome r then none else s.conn.reader
  | .awaitInput h hint => if s.registered (.awaitInput h hint) = [] then s.conn.reader else some h
  | _ => s.conn.reader

/-- The coroutine that waits for the output to be sent after the act. -/
def writerAfter (s : Life) : Act → Option Coro
  | .handleWrite r _ => if s.conn.WritesLast r then none else s.conn.writer
  | .awaitOutput h => if s.registered (.awaitOutput h) = [] then s.conn.writer else some h
  | _ => s.conn.writer

end Life

/-! ## What a callback can do -/

namespace TcpConnection

/-- The coroutine fields, the input buffer and the coroutines scheduled so far are the same. -/
structure Frame (c c' : TcpConnection) : Prop where
  readCoro : c'.readCoro = c.readCoro
  readCoroPending : c'.readCoroPending = c.readCoroPending
  writeCoro : c'.writeCoro = c.writeCoro
  writeCoroPending : c'.writeCoroPending = c.writeCoroPending
  scheduled : c'.scheduled = c.scheduled

theorem Frame.refl (c : TcpConnection) : c.Frame c := ⟨rfl, rfl, rfl, rfl, rfl⟩

theorem Frame.trans {a b c : TcpConnection} (hab : a.Frame b) (hbc : b.Frame c) : a.Frame c where
  readCoro := hbc.readCoro.trans hab.readCoro
  readCoroPending := hbc.readCoroPending.trans hab.readCoroPending
  writeCoro := hbc.writeCoro.trans hab.writeCoro
  writeCoroPending := hbc.writeCoroPending.trans hab.writeCoroPending
  scheduled := hbc.scheduled.trans hab.scheduled

theorem Frame.reader {c c' : TcpConnection} (h : c.Frame c') : c'.reader = c.reader := by
  rw [TcpConnection.reader, h.readCoroPending, h.readCoro, TcpConnection.reader]

theorem Frame.writer {c c' : TcpConnection} (h : c.Frame c') : c'.writer = c.writer := by
  rw [TcpConnection.writer, h.writeCoroPending, h.writeCoro, TcpConnection.writer]

/-- The connection is disconnected and its channel asks for nothing. -/
structure Shut (c : TcpConnection) : Prop where
  state : c.state = .kDisconnected
  isReading : c.isReading = false
  isWriting : c.isWriting = false

theorem scheduled_append (c : TcpConnection) (e : Event) :
    { c with trace := c.trace ++ [e] }.scheduled = c.scheduled ++ e.coro?.toList := by
  cases e with
  | scheduleCoro h unsent =>
      show (c.trace ++ [_]).filterMap Event.coro? = _
      rw [List.filterMap_append]
      rfl
  | shutdownWrite unsent | closeCallback =>
      show (c.trace ++ [_]).filterMap Event.coro? = _
      rw [List.filterMap_append]
      rfl

/-! ## Closing -/

theorem handleClose_frame (c : TcpConnection) : c.Frame c.handleClose :=
  ⟨rfl, rfl, rfl, rfl, (scheduled_append _ .closeCallback).trans (List.append_nil _)⟩

theorem handleClose_shut (c : TcpConnection) : c.handleClose.Shut := ⟨rfl, rfl, rfl⟩

theorem handleClose_closes (c : TcpConnection) : c.handleClose.closes = c.closes + 1 := by
  show (c.trace ++ [Event.closeCallback]).count .closeCallback = _
  rw [List.count_append]
  rfl

theorem shutdownWrite_frame (c : TcpConnection) : c.Frame c.shutdownWrite :=
  ⟨rfl, rfl, rfl, rfl, (scheduled_append _ (.shutdownWrite _)).trans (List.append_nil _)⟩

theorem shutdownWrite_closes (c : TcpConnection) : c.shutdownWrite.closes = c.closes := by
  show (c.trace ++ [Event.shutdownWrite _]).count .closeCallback = _
  rw [List.count_append]
  rfl

theorem shutdownInLoop_frame (c : TcpConnection) : c.Frame c.shutdownInLoop := by
  unfold shutdownInLoop
  dsimp only
  split
  · exact ⟨rfl, rfl, rfl, rfl, rfl⟩
  · have h := shutdownWrite_frame { c with state := .kDisconnecting }
    exact ⟨rfl, rfl, rfl, rfl, h.scheduled⟩

theorem shutdownInLoop_closes (c : TcpConnection) : c.shutdownInLoop.closes = c.closes := by
  unfold shutdownInLoop
  dsimp only
  split
  · rfl
  · exact shutdownWrite_closes _

theorem appendOutput_keeps (c : TcpConnection) (rest : Bytes) :
    c.Frame (c.appendOutput rest) ∧ (c.appendOutput rest).closes = c.closes := by
  obtain ⟨-, -, htrace⟩ := appendOutput_frame c rest
  refine ⟨?_, by rw [closes, htrace, closes]⟩
  unfold appendOutput
  split
  · dsimp only
    split <;> exact ⟨rfl, rfl, rfl, rfl, rfl⟩
  · exact .refl c

/-- The state in which `force_close` acts; elsewhere all three calls of a script do nothing. -/
def IsOpen (c : TcpConnection) : Prop := c.state = .kConnected ∨ c.state = .kConnecting

theorem Shut.not_isOpen {c : TcpConnection} (h : c.Shut) : ¬ c.IsOpen := by
  rintro (hopen | hopen)
  · exact absurd (h.state.symm.trans hopen) (by decide)
  · exact absurd (h.state.symm.trans hopen) (by decide)

/-! ## The effect -/

/-- From `c` to `c'` no coroutine field changes and at most one close runs: if `closing`, it does and
leaves the connection shut. -/
structure Effect (c c' : TcpConnection) (closing : Prop) : Prop where
  frame : c.Frame c'
  closed : closing → c'.Shut ∧ c'.closes = c.closes + 1
  calm : ¬ closing → c'.closes = c.closes

theorem Effect.of_calm {c c' : TcpConnection} {closing : Prop} (hframe : c.Frame c')
    (hcloses : c'.closes = c.closes) (hno : ¬ closing) : c.Effect c' closing :=
  ⟨hframe, fun h => absurd h hno, fun _ => hcloses⟩

theorem Effect.of_handleClose {c c' : TcpConnection} {closing : Prop} (hframe : c.Frame c')
    (hcloses : c'.closes = c.closes) (hyes : closing) : c.Effect c'.handleClose closing :=
  ⟨hframe.trans (handleClose_frame c'),
    fun _ => ⟨handleClose_shut c', by rw [handleClose_closes, hcloses]⟩, fun h => absurd hyes h⟩

theorem Effect.congr {c c' : TcpConnection} {p q : Prop} (h : c.Effect c' p) (hpq : p ↔ q) :
    c.Effect c' q := ⟨h.frame, fun hq => h.closed (hpq.mpr hq), fun hq => h.calm (hq ∘ hpq.mp)⟩

/-- Two parts one after the other, of which the second does nothing once the first has closed. -/
theorem Effect.trans {a b c : TcpConnection} {p q : Prop} (hab : a.Effect b p) (hbc : b.Effect c q)
    (hstop : ¬ b.IsOpen → c = b ∧ ¬ q) : a.Effect c (p ∨ q) where
  frame := hab.frame.trans hbc.frame
  closed h := by
    by_cases hp : p
    · obtain ⟨hshut, hcloses⟩ := hab.closed hp
      obtain ⟨hsame, -⟩ := hstop hshut.not_isOpen
      rw [hsame]
      exact ⟨hshut, hcloses⟩
    · obtain ⟨hshut, hcloses⟩ := hbc.closed (h.resolve_left hp)
      exact ⟨hshut, by rw [hcloses, hab.calm hp]⟩
  calm h := (hbc.calm fun hq => h (.inr hq)).trans (hab.calm fun hp => h (.inl hp))

/-! ## Calls -/

theorem sendInLoop_effect (c : TcpConnection) {data : Bytes} {r : WriteResult} {onComplete : Script}
    (hcb : (c.wrote data).Effect (onComplete.invoke (c.wrote data))
      (onComplete.Closes (c.wrote data))) :
    c.Effect (c.sendInLoop data r onComplete.invoke) (c.SendCloses data r onComplete) := by
  rw [sendInLoop_eq]
  by_cases hdone : c.SendCompletes data r
  · -- all of it is taken, and the callback decides
    have hnofail : ¬ c.SendFails r := fun h => absurd h.2.1 (not_lt.mpr hdone.2.1)
    rw [if_pos hdone]
    have hiff : onComplete.Closes (c.wrote data) ↔ c.SendCloses data r onComplete :=
      ⟨fun h => .inr ⟨hdone, h⟩, fun h => (h.resolve_left hnofail).2⟩
    have heffect := hcb.congr hiff
    exact ⟨⟨heffect.frame.1, heffect.frame.2, heffect.frame.3, heffect.frame.4, heffect.frame.5⟩,
      heffect.closed, heffect.calm⟩
  · rw [if_neg hdone]
    by_cases hfail : c.SendFails r
    · rw [if_pos hfail]
      exact .of_handleClose (.refl c) rfl (.inl hfail)
    · rw [if_neg hfail]
      obtain ⟨hframe, hcloses⟩ :=
        appendOutput_keeps (c.wrote (c.sendTaken data r)) (c.sendRest data r)
      have hno : ¬ c.SendCloses data r onComplete := fun h => h.elim hfail fun h => hdone h.1
      exact .of_calm ⟨hframe.1, hframe.2, hframe.3, hframe.4, hframe.5⟩ hcloses hno

theorem send_effect (c : TcpConnection) {data : Bytes} {r : WriteResult} {onComplete : Script}
    (hcb : (c.wrote data).Effect (onComplete.invoke (c.wrote data))
      (onComplete.Closes (c.wrote data))) :
    c.Effect (c.send data r onComplete.invoke)
      (c.state = .kConnected ∧ c.SendCloses data r onComplete) := by
  unfold send
  split
  · rename_i hconn
    exact (sendInLoop_effect c hcb).congr ⟨fun h => ⟨hconn, h⟩, fun h => h.2⟩
  · rename_i hconn
    exact .of_calm (.refl c) rfl fun h => hconn h.1

theorem shutdown_effect (c : TcpConnection) : c.Effect c.shutdown False := by
  rw [shutdown_eq]
  split
  · exact .of_calm (shutdownInLoop_frame c) (shutdownInLoop_closes c) id
  · exact .of_calm (.refl c) rfl id

theorem forceClose_effect (c : TcpConnection) : c.Effect c.forceClose c.IsOpen := by
  unfold forceClose
  split
  · rename_i hopen
    exact .of_handleClose (.refl c) rfl hopen
  · rename_i hopen
    exact .of_calm (.refl c) rfl hopen

end TcpConnection

namespace Script

open TcpConnection

/-- **A script does nothing to a connection that is neither connected nor connecting.** -/
theorem invoke_of_not_isOpen (sc : Script) {c : TcpConnection} (h : ¬ c.IsOpen) :
    sc.invoke c = c ∧ ¬ sc.Closes c ∧ ¬ sc.Writes c := by
  have hconn : ¬ c.state = .kConnected := fun hs => h (.inl hs)
  induction sc with
  | done => exact ⟨rfl, id, id⟩
  | send data r nested rest _ ih =>
      have hsend : c.send data r nested.invoke = c := if_neg hconn
      simp only [invoke, Closes, Writes, hsend, hconn, false_and, false_or]
      exact ih
  | shutdown rest ih =>
      have hshut : c.shutdown = c := if_neg hconn
      simp only [invoke, Closes, Writes, hshut]
      exact ih
  | forceClose rest ih =>
      have hforce : c.forceClose = c := if_neg h
      have hopen : ¬ (c.state = .kConnected ∨ c.state = .kConnecting) := h
      simp only [invoke, Closes, Writes, hforce, hopen, false_or]
      exact ih

/-- **A script closes at most once**, and touches no coroutine. -/
theorem invoke_effect (sc : Script) (c : TcpConnection) : c.Effect (sc.invoke c) (sc.Closes c) := by
  induction sc generalizing c with
  | done => exact .of_calm (.refl c) rfl id
  | send data r nested rest ihNested ihRest =>
      have hsend := send_effect c (r := r) (ihNested (c.wrote data))
      refine hsend.trans (ihRest _) fun hopen => ?_
      obtain ⟨hsame, hcloses, -⟩ := invoke_of_not_isOpen rest hopen
      exact ⟨hsame, hcloses⟩
  | shutdown rest ih =>
      have hboth := (shutdown_effect c).trans (ih c.shutdown) fun hopen => by
        obtain ⟨hsame, hcloses, -⟩ := invoke_of_not_isOpen rest hopen
        exact ⟨hsame, hcloses⟩
      exact hboth.congr (or_iff_right id)
  | forceClose rest ih =>
      refine (forceClose_effect c).trans (ih _) fun hopen => ?_
      obtain ⟨hsame, hcloses, -⟩ := invoke_of_not_isOpen rest hopen
      exact ⟨hsame, hcloses⟩

end Script

/-! ## What an act does -/

namespace TcpConnection

/-! ## Callbacks and awaitables -/

theorem handleReadWith_eq (c : TcpConnection) (r : ReadResult)
    (onMessage : TcpConnection → TcpConnection) :
    c.handleReadWith r onMessage
      = if c.ReadsSome r then
          match c.readCoroPending, c.readCoro with
          | true, some h =>
              { c.filled r with readCoroPending := false, readCoro := none }.scheduleCoro h
          | _, _ => onMessage (c.filled r)
        else if c.ReadEnds r then (c.filled r).handleClose
        else c.filled r := by
  have hread : c.handleReadWith r onMessage
      = if c.ReadsSome r then
          match c.readCoroPending, c.readCoro with
          | true, some h =>
              { c.filled r with readCoroPending := false, readCoro := none }.scheduleCoro h
          | _, _ => onMessage (c.filled r)
        else if (c.inputBuffer.readFd r.incoming).1 = 0 then (c.filled r).handleClose
        else if r.errno ≠ EAGAIN ∧ r.errno ≠ EWOULDBLOCK then (c.filled r).handleClose
        else c.filled r := rfl
  rw [hread]
  by_cases hsome : c.ReadsSome r
  · rw [if_pos hsome, if_pos hsome]
  · have hle : ¬ 0 < (c.inputBuffer.readFd r.incoming).1 := hsome
    rw [if_neg hsome, if_neg hsome]
    by_cases hzero : (c.inputBuffer.readFd r.incoming).1 = 0
    · rw [if_pos hzero, if_pos (show c.ReadEnds r from .inl hzero)]
    · rw [if_neg hzero]
      by_cases herr : r.errno ≠ EAGAIN ∧ r.errno ≠ EWOULDBLOCK
      · rw [if_pos herr, if_pos (show c.ReadEnds r from .inr ⟨by omega, herr⟩)]
      · rw [if_neg herr, if_neg (show ¬ c.ReadEnds r from fun h => herr (h.resolve_left hzero).2)]

theorem reader_eq_none {c : TcpConnection}
    (h : ∀ co, c.readCoroPending = true → c.readCoro = some co → False) : c.reader = none := by
  unfold reader
  cases hpending : c.readCoroPending with
  | false => rfl
  | true =>
      cases hcoro : c.readCoro with
      | none => rfl
      | some co => exact absurd hcoro (h co hpending)

theorem writer_eq_none {c : TcpConnection}
    (h : ∀ co, c.writeCoroPending = true → c.writeCoro = some co → False) : c.writer = none := by
  unfold writer
  cases hpending : c.writeCoroPending with
  | false => rfl
  | true =>
      cases hcoro : c.writeCoro with
      | none => rfl
      | some co => exact absurd hcoro (h co hpending)

/-- `handle_write` after the last write. -/
def afterLast (c : TcpConnection) (callback : TcpConnection → TcpConnection) : TcpConnection :=
  let c := (callback c).resumeWriter
  if c.state = .kDisconnecting then c.shutdownWrite else c

theorem handleWrite_cases (c : TcpConnection) (r : WriteResult)
    (callback : TcpConnection → TcpConnection) :
    c.handleWrite r callback
      = if c.WritesLast r then (c.drained r.ret.toNat).afterLast callback
        else if c.WriteFails r then c.handleError
        else if c.isWriting = true ∧ 0 < r.ret then
          { c.wrote ((c.outputBuffer.peek c.outputBuffer.readableBytes).take r.ret.toNat) with
            outputBuffer := c.outputBuffer.retrieve r.ret.toNat }
        else c := by
  have hhandle : c.handleWrite r callback
      = if c.isWriting = true then
          if 0 < r.ret then
            if (c.outputBuffer.retrieve r.ret.toNat).readableBytes = 0 then
              (c.drained r.ret.toNat).afterLast callback
            else { c.wrote ((c.outputBuffer.peek c.outputBuffer.readableBytes).take r.ret.toNat) with
              outputBuffer := c.outputBuffer.retrieve r.ret.toNat }
          else if r.errno ≠ EAGAIN ∧ r.errno ≠ EWOULDBLOCK then c.handleError
          else c
        else c := rfl
  rw [hhandle]
  by_cases hw : c.isWriting = true
  · by_cases hret : 0 < r.ret
    · have hnofail : ¬ c.WriteFails r := fun h => absurd h.2.1 (not_le.mpr hret)
      simp only [WritesLast, hw, hret, true_and, if_true, if_neg hnofail]
    · have hnolast : ¬ c.WritesLast r := fun h => hret h.2.1
      simp only [WriteFails, hw, hret, not_lt.mp hret, if_neg hnolast, true_and, if_true, if_false,
        and_false]
  · have hnolast : ¬ c.WritesLast r := fun h => hw h.1
    have hnofail : ¬ c.WriteFails r := fun h => hw h.1
    have hnosome : ¬ (c.isWriting = true ∧ 0 < r.ret) := fun h => hw h.1
    rw [if_neg hw, if_neg hnolast, if_neg hnofail, if_neg hnosome]

theorem scheduleCoro_closes (c : TcpConnection) (h : Coro) :
    (c.scheduleCoro h).closes = c.closes := by
  show (c.trace ++ [Event.scheduleCoro h _]).count .closeCallback = _
  rw [List.count_append]
  rfl

theorem resumeWriter_spec (c : TcpConnection) :
    c.resumeWriter.scheduled = c.scheduled ++ c.writer.toList ∧ c.resumeWriter.writer = none
      ∧ c.resumeWriter.reader = c.reader ∧ c.resumeWriter.closes = c.closes
      ∧ (c.Shut → c.resumeWriter.Shut) := by
  unfold resumeWriter
  split
  · rename_i h hpending hcoro
    have hwriter : c.writer = some h := by rw [writer, hpending, hcoro, if_pos rfl]
    refine ⟨?_, rfl, rfl, ?_, fun hs => ⟨hs.1, hs.2, hs.3⟩⟩
    · rw [hwriter]
      exact scheduled_append { c with writeCoroPending := false, writeCoro := none } (.scheduleCoro h _)
    · exact scheduleCoro_closes _ h
  · rename_i hnot
    rw [writer_eq_none hnot]
    exact ⟨(List.append_nil _).symm, rfl, rfl, rfl, id⟩

theorem resumeReadCoro_spec (c : TcpConnection) (h : Coro) :
    (c.resumeReadCoro h).scheduled = c.scheduled ∧ (c.resumeReadCoro h).reader = some h
      ∧ (c.resumeReadCoro h).writer = c.writer ∧ (c.resumeReadCoro h).closes = c.closes := by
  unfold resumeReadCoro
  dsimp only
  split <;> exact ⟨rfl, rfl, rfl, rfl⟩

theorem resumeWriteCoro_spec (c : TcpConnection) (h : Coro) :
    (c.resumeWriteCoro h).scheduled = c.scheduled ∧ (c.resumeWriteCoro h).reader = c.reader
      ∧ (c.resumeWriteCoro h).writer = some h ∧ (c.resumeWriteCoro h).closes = c.closes := by
  unfold resumeWriteCoro
  dsimp only
  split <;> exact ⟨rfl, rfl, rfl, rfl⟩

theorem readSome_frame (c : TcpConnection) (r : ReadResult) :
    c.Frame (c.readSome r).2 ∧ (c.readSome r).2.closes = c.closes := by
  unfold readSome
  split <;> exact ⟨⟨rfl, rfl, rfl, rfl, rfl⟩, rfl⟩

/-- After the last write the waiting writer is scheduled, whatever the callback has done. -/
theorem afterLast_spec (c : TcpConnection) (cb : Script) :
    (c.afterLast cb.invoke).scheduled = c.scheduled ++ c.writer.toList
      ∧ (c.afterLast cb.invoke).writer = none ∧ (c.afterLast cb.invoke).reader = c.reader
      ∧ (cb.Closes c → (c.afterLast cb.invoke).Shut
          ∧ (c.afterLast cb.invoke).closes = c.closes + 1)
      ∧ (¬ cb.Closes c → (c.afterLast cb.invoke).closes = c.closes) := by
  have hcb := cb.invoke_effect c
  obtain ⟨hscheduled, hwriter, hreader, hcloses, hshut⟩ := resumeWriter_spec (cb.invoke c)
  rw [hcb.frame.writer, hcb.frame.scheduled] at hscheduled
  rw [hcb.frame.reader] at hreader
  unfold afterLast
  dsimp only
  split
  · rename_i hdisc
    have hframe := shutdownWrite_frame (cb.invoke c).resumeWriter
    refine ⟨hframe.scheduled.trans hscheduled, hframe.writer.trans hwriter,
      hframe.reader.trans hreader, ?_, ?_⟩
    · intro hc
      exact absurd ((hshut (hcb.closed hc).1).state.symm.trans hdisc) (by decide)
    · intro hc
      rw [shutdownWrite_closes, hcloses, hcb.calm hc]
  · refine ⟨hscheduled, hwriter, hreader, ?_, ?_⟩
    · intro hc
      exact ⟨hshut (hcb.closed hc).1, by rw [hcloses, (hcb.closed hc).2]⟩
    · intro hc
      rw [hcloses, hcb.calm hc]

end TcpConnection

namespace Life

open TcpConnection

/-! ## The specification -/

/-- What an act does to the closes and to the coroutines. -/
structure Spec (s : Life) (a : Act) : Prop where
  closed : s.Closes a → (s.onConn a).Shut ∧ (s.onConn a).closes = s.conn.closes + 1
  calm : ¬ s.Closes a → (s.onConn a).closes = s.conn.closes
  scheduled : (s.onConn a).scheduled = s.conn.scheduled ++ s.released a
  reader : (s.onConn a).reader = s.readerAfter a
  writer : (s.onConn a).writer = s.writerAfter a

theorem onConn_handleRead (s : Life) (r : ReadResult) (onMessage : Script) :
    s.onConn (.handleRead r onMessage)
      = if s.conn.ReadsSome r then
          match s.conn.readCoroPending, s.conn.readCoro with
          | true, some h =>
              { s.conn.filled r with readCoroPending := false, readCoro := none }.scheduleCoro h
          | _, _ => onMessage.invoke (s.conn.filled r)
        else if s.conn.ReadEnds r then (s.conn.filled r).handleClose
        else s.conn.filled r := by
  show s.conn.handleReadWith r onMessage.invoke = _
  rw [handleReadWith_eq]

theorem onConn_handleWrite (s : Life) (r : WriteResult) (onComplete : Script) :
    s.onConn (.handleWrite r onComplete)
      = if s.conn.WritesLast r then (s.conn.drained r.ret.toNat).afterLast onComplete.invoke
        else if s.conn.WriteFails r then s.conn.handleError
        else if s.conn.isWriting = true ∧ 0 < r.ret then
          { s.conn.wrote
              ((s.conn.outputBuffer.peek s.conn.outputBuffer.readableBytes).take r.ret.toNat) with
            outputBuffer := s.conn.outputBuffer.retrieve r.ret.toNat }
        else s.conn := by
  show s.conn.handleWrite r onComplete.invoke = _
  rw [handleWrite_cases]

theorem onConn_awaitInput (s : Life) (h : Coro) (hint : Nat) :
    s.onConn (.awaitInput h hint)
      = if s.conn.asyncReadReady hint = true then s.conn
        else if 0 < s.conn.inputBuffer.readableBytes then s.conn.scheduleCoro h
        else s.conn.resumeReadCoro h := rfl

theorem onConn_awaitOutput (s : Life) (h : Coro) :
    s.onConn (.awaitOutput h)
      = if s.conn.outputBuffer.readableBytes = 0 then s.conn.scheduleCoro h
        else s.conn.resumeWriteCoro h := rfl

/-- Acts that leave the coroutines alone. -/
theorem spec_of_effect {s : Life} {a : Act} (h : s.conn.Effect (s.onConn a) (s.Closes a))
    (hreleased : s.released a = []) (hreader : s.readerAfter a = s.conn.reader)
    (hwriter : s.writerAfter a = s.conn.writer) : s.Spec a where
  closed := h.closed
  calm := h.calm
  scheduled := by rw [h.frame.scheduled, hreleased, List.append_nil]
  reader := h.frame.reader.trans hreader.symm
  writer := h.frame.writer.trans hwriter.symm

/-! ## One lemma for each act -/

theorem handleRead_spec (s : Life) (r : ReadResult) (onMessage : Script) :
    s.Spec (.handleRead r onMessage) := by
  have hfill : s.conn.Frame (s.conn.filled r) := ⟨rfl, rfl, rfl, rfl, rfl⟩
  have honConn := s.onConn_handleRead r onMessage
  by_cases hsome : s.conn.ReadsSome r
  · have hnoend : ¬ s.conn.ReadEnds r := by
      have hpos : 0 < (s.conn.inputBuffer.readFd r.incoming).1 := hsome
      rintro (hend | hend)
      · omega
      · omega
    rw [if_pos hsome] at honConn
    split at honConn
    · -- a coroutine waits for input: it is scheduled, and the callback is not called
      rename_i h hpending hcoro
      have hreader : s.conn.reader = some h := by
        rw [TcpConnection.reader, hpending, hcoro, if_pos rfl]
      have hno : ¬ s.Closes (.handleRead r onMessage) := by
        rintro (hend | ⟨-, hnone, -⟩)
        · exact hnoend hend
        · exact absurd (hreader.symm.trans hnone) (by simp)
      refine ⟨fun hc => absurd hc hno, fun _ => ?_, ?_, ?_, ?_⟩
      · rw [honConn]
        exact scheduleCoro_closes _ h
      · rw [honConn, released, if_pos hsome, hreader]
        exact scheduled_append { s.conn.filled r with readCoroPending := false, readCoro := none }
          (.scheduleCoro h _)
      · rw [honConn, readerAfter, if_pos hsome]
        rfl
      · rw [honConn]
        rfl
    · -- nobody waits: the callback gets the message
      rename_i hnot
      have hreader : s.conn.reader = none := reader_eq_none hnot
      have hcb := onMessage.invoke_effect (s.conn.filled r)
      have heffect : s.conn.Effect (s.onConn (.handleRead r onMessage))
          (s.Closes (.handleRead r onMessage)) := by
        rw [honConn]
        refine ⟨hfill.trans hcb.frame, ?_, ?_⟩
        · intro hc
          exact hcb.closed (hc.resolve_left hnoend).2.2
        · intro hc
          exact hcb.calm fun hcloses => hc (.inr ⟨hsome, hreader, hcloses⟩)
      refine spec_of_effect heffect ?_ ?_ rfl
      · rw [released, if_pos hsome, hreader]
        rfl
      · rw [readerAfter, if_pos hsome, hreader]
  · rw [if_neg hsome] at honConn
    have heffect : s.conn.Effect (s.onConn (.handleRead r onMessage))
        (s.Closes (.handleRead r onMessage)) := by
      rw [honConn]
      split
      · rename_i hend
        exact .of_handleClose hfill rfl (.inl hend)
      · rename_i hend
        exact .of_calm hfill rfl fun hc => hc.elim hend fun h => hsome h.1
    exact spec_of_effect heffect (if_neg hsome) (if_neg hsome) rfl

theorem handleWrite_spec (s : Life) (r : WriteResult) (onComplete : Script) :
    s.Spec (.handleWrite r onComplete) := by
  have honConn := s.onConn_handleWrite r onComplete
  by_cases hlast : s.conn.WritesLast r
  · -- the callback, then the waiting writer, then the half-close
    have hnofail : ¬ s.conn.WriteFails r := fun h => absurd h.2.1 (not_le.mpr hlast.2.1)
    have hiff : s.Closes (.handleWrite r onComplete)
        ↔ onComplete.Closes (s.conn.drained r.ret.toNat) :=
      ⟨fun h => (h.resolve_left hnofail).2, fun h => .inr ⟨hlast, h⟩⟩
    obtain ⟨hscheduled, hwriter, hreader, hclosed, hcalm⟩ :=
      afterLast_spec (s.conn.drained r.ret.toNat) onComplete
    rw [if_pos hlast] at honConn
    refine ⟨fun hc => ?_, fun hc => ?_, ?_, ?_, ?_⟩
    · rw [honConn]
      exact hclosed (hiff.mp hc)
    · rw [honConn]
      exact hcalm (mt hiff.mpr hc)
    · rw [honConn, released, if_pos hlast]
      exact hscheduled
    · rw [honConn]
      exact hreader
    · rw [honConn, writerAfter, if_pos hlast]
      exact hwriter
  · rw [if_neg hlast] at honConn
    have heffect : s.conn.Effect (s.onConn (.handleWrite r onComplete))
        (s.Closes (.handleWrite r onComplete)) := by
      rw [honConn]
      by_cases hfail : s.conn.WriteFails r
      · rw [if_pos hfail]
        exact .of_handleClose (.refl _) rfl (.inl hfail)
      · have hno : ¬ s.Closes (.handleWrite r onComplete) := fun hc =>
          hc.elim hfail fun h => hlast h.1
        rw [if_neg hfail]
        split <;> exact .of_calm ⟨rfl, rfl, rfl, rfl, rfl⟩ rfl hno
    exact spec_of_effect heffect (if_neg hlast) rfl (if_neg hlast)

theorem awaitInput_spec (s : Life) (h : Coro) (hint : Nat) : s.Spec (.awaitInput h hint) := by
  have honConn := s.onConn_awaitInput h hint
  by_cases hready : s.conn.asyncReadReady hint = true
  · rw [if_pos hready] at honConn
    have hreg : s.registered (.awaitInput h hint) = [] := if_pos (.inl hready)
    refine spec_of_effect ?_ ?_ (if_pos hreg) rfl
    · rw [honConn]
      exact .of_calm (.refl _) rfl id
    · exact if_neg fun hc => Bool.false_ne_true (hc.1.symm.trans hready)
  · have hfalse : s.conn.asyncReadReady hint = false := Bool.eq_false_of_not_eq_true hready
    rw [if_neg hready] at honConn
    by_cases hsome : 0 < s.conn.inputBuffer.readableBytes
    · have hreg : s.registered (.awaitInput h hint) = [] := if_pos (.inr hsome)
      have hrel : s.released (.awaitInput h hint) = [h] := if_pos ⟨hfalse, hsome⟩
      rw [if_pos hsome] at honConn
      refine ⟨nofun, fun _ => ?_, ?_, ?_, ?_⟩
      · rw [honConn]
        exact scheduleCoro_closes _ h
      · rw [honConn, hrel]
        exact scheduled_append s.conn (.scheduleCoro h _)
      · rw [honConn, readerAfter, if_pos hreg]
        rfl
      · rw [honConn]
        rfl
    · have hreg : s.registered (.awaitInput h hint) = [h] := if_neg fun hc => hc.elim hready hsome
      have hrel : s.released (.awaitInput h hint) = [] := if_neg fun hc => hsome hc.2
      rw [if_neg hsome] at honConn
      have hne : s.registered (.awaitInput h hint) ≠ [] := by
        rw [hreg]
        exact List.cons_ne_nil _ _
      obtain ⟨hsched, hread, hwrite, hcloses⟩ := resumeReadCoro_spec s.conn h
      refine ⟨nofun, fun _ => ?_, ?_, ?_, ?_⟩
      · rw [honConn, hcloses]
      · rw [honConn, hrel, hsched, List.append_nil]
      · rw [honConn, readerAfter, if_neg hne, hread]
      · rw [honConn, hwrite]
        rfl

theorem awaitOutput_spec (s : Life) (h : Coro) : s.Spec (.awaitOutput h) := by
  have honConn := s.onConn_awaitOutput h
  by_cases hzero : s.conn.outputBuffer.readableBytes = 0
  · have hreg : s.registered (.awaitOutput h) = [] := if_pos hzero
    have hrel : s.released (.awaitOutput h) = [h] := if_pos hzero
    rw [if_pos hzero] at honConn
    refine ⟨nofun, fun _ => ?_, ?_, ?_, ?_⟩
    · rw [honConn]
      exact scheduleCoro_closes _ h
    · rw [honConn, hrel]
      exact scheduled_append s.conn (.scheduleCoro h _)
    · rw [honConn]
      rfl
    · rw [honConn, writerAfter, if_pos hreg]
      rfl
  · have hreg : s.registered (.awaitOutput h) = [h] := if_neg hzero
    have hrel : s.released (.awaitOutput h) = [] := if_neg hzero
    have hne : s.registered (.awaitOutput h) ≠ [] := by
      rw [hreg]
      exact List.cons_ne_nil _ _
    rw [if_neg hzero] at honConn
    obtain ⟨hsched, hread, hwrite, hcloses⟩ := resumeWriteCoro_spec s.conn h
    refine ⟨nofun, fun _ => ?_, ?_, ?_, ?_⟩
    · rw [honConn, hcloses]
    · rw [honConn, hrel, hsched, List.append_nil]
    · rw [honConn, hread]
      rfl
    · rw [honConn, writerAfter, if_neg hne, hwrite]

theorem runClosure_spec (s : Life) (r : WriteResult) (onComplete : Script) :
    s.Spec (.runClosure r onComplete) := by
  refine spec_of_effect ?_ rfl rfl rfl
  cases hqueue : s.queue with
  | nil =>
      simp only [onConn, Closes, hqueue]
      exact .of_calm (.refl _) rfl id
  | cons cl rest =>
      cases cl with
      | send data =>
          simp only [onConn, Closes, hqueue]
          exact sendInLoop_effect s.conn (onComplete.invoke_effect _)
      | shutdown =>
          simp only [onConn, Closes, hqueue]
          exact .of_calm (shutdownInLoop_frame _) (shutdownInLoop_closes _) id
      | forceClose =>
          simp only [onConn, Closes, hqueue]
          exact .of_handleClose (.refl _) rfl trivial

/-! ## Every act -/

/-- **What an act does**, case by case. -/
theorem act_spec (s : Life) (a : Act) : s.Spec a := by
  cases a with
  | connectEstablished | connectDestroyed | retrieve n =>
      exact spec_of_effect (.of_calm ⟨rfl, rfl, rfl, rfl, rfl⟩ rfl id) rfl rfl rfl
  | handleClose | handleError =>
      exact spec_of_effect (.of_handleClose (.refl _) rfl trivial) rfl rfl rfl
  | handleRead r onMessage => exact handleRead_spec s r onMessage
  | handleWrite r onComplete => exact handleWrite_spec s r onComplete
  | send data r onComplete =>
      exact spec_of_effect (send_effect s.conn (onComplete.invoke_effect _)) rfl rfl rfl
  | shutdown => exact spec_of_effect (shutdown_effect s.conn) rfl rfl rfl
  | forceClose => exact spec_of_effect (forceClose_effect s.conn) rfl rfl rfl
  | readSome r => exact spec_of_effect (.of_calm (readSome_frame s.conn r).1
      (readSome_frame s.conn r).2 id) rfl rfl rfl
  | awaitInput h hint => exact awaitInput_spec s h hint
  | awaitOutput h => exact awaitOutput_spec s h
  | post cl => exact spec_of_effect (.of_calm (.refl _) rfl id) rfl rfl rfl
  | runClosure r onComplete => exact runClosure_spec s r onComplete

/-- The coroutines that wait after an act. -/
theorem act_waiting (s : Life) (a : Act) :
    (s.act a).waiting = s.waiting.diff (s.released a) ++ s.registered a := by
  show s.waiting.diff ((s.onConn a).scheduled.drop s.conn.scheduled.length) ++ _ = _
  rw [(act_spec s a).scheduled, List.drop_left]

theorem act_closed_iff (s : Life) (a : Act) : (s.act a).Closed ↔ s.Closed ∨ s.Closes a := by
  show 0 < (s.onConn a).closes ↔ 0 < s.conn.closes ∨ _
  by_cases hc : s.Closes a
  · rw [((act_spec s a).closed hc).2]
    simp only [hc, or_true, iff_true]
    omega
  · rw [(act_spec s a).calm hc]
    simp only [hc, or_false]

end Life

/-! ## Nothing but `connect_established` connects -/

namespace TcpConnection

theorem handleClose_not_connected (c : TcpConnection) : c.handleClose.state ≠ .kConnected := by
  show ConnectionState.kDisconnected ≠ .kConnected
  decide

theorem sendInLoop_not_connected {c : TcpConnection} (h : c.state ≠ .kConnected) {data : Bytes}
    {r : WriteResult} {callback : TcpConnection → TcpConnection}
    (hcb : (callback (c.wrote data)).state ≠ .kConnected) :
    (c.sendInLoop data r callback).state ≠ .kConnected := by
  rw [sendInLoop_eq]
  split
  · exact hcb
  · split
    · rw [handleError_state]
      decide
    · rw [(appendOutput_frame _ _).1]
      exact h

theorem shutdownInLoop_not_connected (c : TcpConnection) :
    c.shutdownInLoop.state ≠ .kConnected := by
  unfold shutdownInLoop
  dsimp only
  split
  · exact nofun
  · exact nofun

theorem shutdown_not_connected (c : TcpConnection) : c.shutdown.state ≠ .kConnected := by
  rw [shutdown_eq]
  split
  · exact c.shutdownInLoop_not_connected
  · rename_i h
    exact h

theorem forceClose_not_connected (c : TcpConnection) : c.forceClose.state ≠ .kConnected := by
  unfold forceClose
  split
  · exact c.handleClose_not_connected
  · rename_i h
    exact fun hc => h (.inl hc)

end TcpConnection

theorem Script.invoke_not_connected (sc : Script) {c : TcpConnection} (h : c.state ≠ .kConnected) :
    (sc.invoke c).state ≠ .kConnected := by
  induction sc generalizing c with
  | done => exact h
  | send data r nested rest _ ih =>
      have hsend : c.send data r nested.invoke = c := if_neg h
      exact ih (by rw [hsend]; exact h)
  | shutdown rest ih => exact ih c.shutdown_not_connected
  | forceClose rest ih => exact ih c.forceClose_not_connected

namespace Life

open TcpConnection

/-! ## Acts -/

theorem onConn_handleRead_not_connected {s : Life} (h : s.conn.state ≠ .kConnected) (r : ReadResult)
    (onMessage : Script) : (s.onConn (.handleRead r onMessage)).state ≠ .kConnected := by
  rw [onConn_handleRead]
  split
  · split
    · exact h
    · exact onMessage.invoke_not_connected h
  · split
    · exact (s.conn.filled r).handleClose_not_connected
    · exact h

theorem onConn_handleWrite_not_connected {s : Life} (h : s.conn.state ≠ .kConnected)
    (r : WriteResult) (onComplete : Script) :
    (s.onConn (.handleWrite r onComplete)).state ≠ .kConnected := by
  rw [onConn_handleWrite]
  split
  · have hcb : (onComplete.invoke (s.conn.drained r.ret.toNat)).state ≠ .kConnected :=
      onComplete.invoke_not_connected h
    obtain ⟨hstate, -⟩ := resumeWriter_frame (onComplete.invoke (s.conn.drained r.ret.toNat))
    unfold afterLast
    dsimp only
    split
    · rename_i hdisc
      show (onComplete.invoke (s.conn.drained r.ret.toNat)).resumeWriter.state ≠ .kConnected
      rw [hdisc]
      decide
    · rw [hstate]
      exact hcb
  · split
    · exact s.conn.handleClose_not_connected
    · split <;> exact h

theorem onConn_runClosure_not_connected {s : Life} (h : s.conn.state ≠ .kConnected)
    (r : WriteResult) (onComplete : Script) :
    (s.onConn (.runClosure r onComplete)).state ≠ .kConnected := by
  simp only [onConn]
  split
  · exact h
  · rename_i cl rest hqueue
    cases cl with
    | send data => exact sendInLoop_not_connected h (onComplete.invoke_not_connected h)
    | shutdown => exact s.conn.shutdownInLoop_not_connected
    | forceClose => exact s.conn.handleClose_not_connected

/-- **A connection that is not connected stays so**, unless it is established again. -/
theorem act_not_connected {s : Life} (h : s.conn.state ≠ .kConnected) {a : Act}
    (ha : a ≠ .connectEstablished) : (s.act a).conn.state ≠ .kConnected := by
  show (s.onConn a).state ≠ .kConnected
  cases a with
  | connectEstablished => exact absurd rfl ha
  | connectDestroyed | handleClose | handleError => exact s.conn.handleClose_not_connected
  | handleRead r onMessage => exact onConn_handleRead_not_connected h r onMessage
  | handleWrite r onComplete => exact onConn_handleWrite_not_connected h r onComplete
  | send data r onComplete =>
      have hsend : s.onConn (.send data r onComplete) = s.conn := if_neg h
      rw [hsend]
      exact h
  | shutdown => exact s.conn.shutdown_not_connected
  | forceClose => exact s.conn.forceClose_not_connected
  | retrieve n => exact h
  | readSome r =>
      show (s.conn.readSome r).2.state ≠ .kConnected
      unfold readSome
      split <;> exact h
  | awaitInput co hint =>
      rw [onConn_awaitInput, resumeReadCoro]
      dsimp only
      split_ifs <;> exact h
  | awaitOutput co =>
      rw [onConn_awaitOutput, resumeWriteCoro]
      dsimp only
      split_ifs <;> exact h
  | post cl => exact h
  | runClosure r onComplete => exact onConn_runClosure_not_connected h r onComplete

end Life

/-! ## The input buffer -/

namespace TcpConnection

theorem sendInLoop_inputBuffer (c : TcpConnection) {data : Bytes} {r : WriteResult}
    {callback : TcpConnection → TcpConnection}
    (hcb : (callback (c.wrote data)).inputBuffer = c.inputBuffer) :
    (c.sendInLoop data r callback).inputBuffer = c.inputBuffer := by
  rw [sendInLoop_eq]
  split
  · exact hcb
  · split
    · rfl
    · unfold appendOutput
      dsimp only
      split_ifs <;> rfl

theorem send_inputBuffer (c : TcpConnection) {data : Bytes} {r : WriteResult}
    {callback : TcpConnection → TcpConnection}
    (hcb : (callback (c.wrote data)).inputBuffer = c.inputBuffer) :
    (c.send data r callback).inputBuffer = c.inputBuffer := by
  unfold send
  split
  · exact c.sendInLoop_inputBuffer hcb
  · rfl

theorem shutdownInLoop_inputBuffer (c : TcpConnection) :
    c.shutdownInLoop.inputBuffer = c.inputBuffer := by
  unfold shutdownInLoop
  dsimp only
  split <;> rfl

theorem shutdown_inputBuffer (c : TcpConnection) : c.shutdown.inputBuffer = c.inputBuffer := by
  rw [shutdown_eq]
  split
  · exact c.shutdownInLoop_inputBuffer
  · rfl

theorem forceClose_inputBuffer (c : TcpConnection) : c.forceClose.inputBuffer = c.inputBuffer := by
  unfold forceClose
  split <;> rfl

end TcpConnection

theorem Script.invoke_inputBuffer (sc : Script) (c : TcpConnection) :
    (sc.invoke c).inputBuffer = c.inputBuffer := by
  induction sc generalizing c with
  | done => rfl
  | send data r nested rest ihNested ihRest =>
      exact (ihRest _).trans (c.send_inputBuffer (ihNested (c.wrote data)))
  | shutdown rest ih => exact (ih _).trans c.shutdown_inputBuffer
  | forceClose rest ih => exact (ih _).trans c.forceClose_inputBuffer

namespace Life

open TcpConnection

/-! ## What an act leaves in it -/

/-- The input buffer after an act. -/
def inputAfter (s : Life) : Act → Buffer
  | .handleRead r _ => (s.conn.inputBuffer.readFd r.incoming).2
  | .readSome r =>
      if 0 < s.conn.inputBuffer.readableBytes then s.conn.inputBuffer
      else (s.conn.inputBuffer.readFd r.incoming).2
  | .retrieve n => s.conn.inputBuffer.retrieve n
  | _ => s.conn.inputBuffer

/-- **Only reads and `retrieve` touch the input buffer.** -/
theorem act_inputBuffer (s : Life) (a : Act) : (s.act a).conn.inputBuffer = s.inputAfter a := by
  show (s.onConn a).inputBuffer = _
  cases a with
  | connectEstablished | connectDestroyed | handleClose | handleError | retrieve | post => rfl
  | handleRead r onMessage =>
      rw [onConn_handleRead]
      split
      · split
        · rfl
        · exact onMessage.invoke_inputBuffer _
      · split <;> rfl
  | handleWrite r onComplete =>
      rw [onConn_handleWrite]
      split
      · have hcb : (onComplete.invoke (s.conn.drained r.ret.toNat)).inputBuffer
            = s.conn.inputBuffer := onComplete.invoke_inputBuffer _
        unfold afterLast resumeWriter
        dsimp only
        split
        · split <;> exact hcb
        · split <;> exact hcb
      · split
        · rfl
        · split <;> rfl
  | send data r onComplete => exact s.conn.send_inputBuffer (onComplete.invoke_inputBuffer _)
  | shutdown => exact s.conn.shutdown_inputBuffer
  | forceClose => exact s.conn.forceClose_inputBuffer
  | readSome r =>
      show (s.conn.readSome r).2.inputBuffer = if _ then _ else _
      unfold readSome
      split <;> rfl
  | awaitInput co hint =>
      show _ = s.conn.inputBuffer
      rw [onConn_awaitInput, resumeReadCoro]
      dsimp only
      split_ifs <;> rfl
  | awaitOutput co =>
      show _ = s.conn.inputBuffer
      rw [onConn_awaitOutput, resumeWriteCoro]
      dsimp only
      split_ifs <;> rfl
  | runClosure r onComplete =>
      simp only [onConn]
      split
      · rfl
      · rename_i cl rest hqueue
        cases cl with
        | send data => exact s.conn.sendInLoop_inputBuffer (onComplete.invoke_inputBuffer _)
        | shutdown => exact s.conn.shutdownInLoop_inputBuffer
        | forceClose => rfl

end Life

end LightNet.Net
