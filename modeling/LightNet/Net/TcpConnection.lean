/-
# LightNet.Net.TcpConnection — one connection of `net/tcp_connection.cpp` on its loop thread.

The state is the connection's own fields, with the two interest bits of its channel and whether the
channel has been added to its loop, followed by what the outside has seen: the bytes the kernel has
taken (`wire`) and the calls that leave the class (`trace`).  What the kernel answers is a parameter of
each function: the result of `::write`, what `readv` delivers.  `write_complete_callback_` is a parameter
too, as the function from connection to connection that one invocation is; an unset callback is `id`.

The awaitables of `coro/awaitable.h` are here as well, since they work on the connection alone.
-/
import LightNet.Core.BufferQueue

namespace LightNet.Net

open LightNet.Foundation LightNet.Core

/-- `lightnet::ConnectionState`. -/
inductive ConnectionState where
  | kConnecting
  | kConnected
  | kDisconnecting
  | kDisconnected
  deriving DecidableEq, Repr

/-- A suspended coroutine, as `std::coroutine_handle<>` names it. -/
abbrev Coro := Nat

/-- The kernel has no room or no data now. -/
def EAGAIN : Nat := 11
/-- The same number as `EAGAIN`. -/
def EWOULDBLOCK : Nat := 11

/-- What `::write` returns, and `errno` after it. -/
structure WriteResult where
  ret : Int
  errno : Nat
  deriving DecidableEq

/-- What `readv` delivers (`none` when it fails), and `errno` after it. -/
structure ReadResult where
  incoming : Option Bytes
  errno : Nat
  deriving DecidableEq

/-- A call that leaves the connection.  `unsent` is the number of unread bytes of `output_buffer_`
at that moment. -/
inductive Event where
  | scheduleCoro (h : Coro) (unsent : Nat)
  | shutdownWrite (unsent : Nat)
  | closeCallback
  deriving DecidableEq, Repr

/-- `lightnet::TcpConnection`. -/
structure TcpConnection where
  state : ConnectionState := .kConnecting
  isReading : Bool := false
  isWriting : Bool := false
  addedToLoop : Bool := false
  inputBuffer : Buffer := .new
  outputBuffer : Buffer := .new
  readCoro : Option Coro := none
  writeCoro : Option Coro := none
  readCoroPending : Bool := false
  writeCoroPending : Bool := false
  wire : Bytes := []
  trace : List Event := []

namespace TcpConnection

/-- `is_connected()`. -/
def isConnected (c : TcpConnection) : Bool := c.state == .kConnected

/-! ## The channel and the loop -/

/-- `channel_->enable_reading()`. -/
def enableReading (c : TcpConnection) : TcpConnection :=
  { c with isReading := true, addedToLoop := true }

/-- `channel_->enable_writing()`. -/
def enableWriting (c : TcpConnection) : TcpConnection :=
  { c with isWriting := true, addedToLoop := true }

/-- `channel_->disable_writing()`. -/
def disableWriting (c : TcpConnection) : TcpConnection :=
  { c with isWriting := false, addedToLoop := true }

/-- `channel_->disable_all()`. -/
def disableAll (c : TcpConnection) : TcpConnection :=
  { c with isReading := false, isWriting := false, addedToLoop := true }

/-- `loop_->schedule_coro(h)`. -/
def scheduleCoro (c : TcpConnection) (h : Coro) : TcpConnection :=
  { c with trace := c.trace ++ [.scheduleCoro h c.outputBuffer.readableBytes] }

/-- `sockets::shutdown_write(channel_->fd())`. -/
def shutdownWrite (c : TcpConnection) : TcpConnection :=
  { c with trace := c.trace ++ [.shutdownWrite c.outputBuffer.readableBytes] }

/-- The kernel takes these bytes. -/
def wrote (c : TcpConnection) (bytes : Bytes) : TcpConnection := { c with wire := c.wire ++ bytes }

/-! ## Closing -/

/-- `connect_established()`. -/
def connectEstablished (c : TcpConnection) : TcpConnection :=
  { c with state := .kConnected }.enableReading

/-- `handle_close()`; the callback marks the connection as destroyed, which it already is. -/
def handleClose (c : TcpConnection) : TcpConnection :=
  let c := { c with state := .kDisconnected }.disableAll
  { c with trace := c.trace ++ [.closeCallback] }

/-- `handle_error()`. -/
def handleError (c : TcpConnection) : TcpConnection := c.handleClose

/-- `force_close()` on the loop thread. -/
def forceClose (c : TcpConnection) : TcpConnection :=
  if c.state = .kConnected ∨ c.state = .kConnecting then c.handleClose else c

/-! ## Writing -/

/-- The last part of `send_in_loop`: what is left goes to `output_buffer_`. -/
def appendOutput (c : TcpConnection) (data : Bytes) : TcpConnection :=
  if 0 < data.length then
    let c := { c with outputBuffer := c.outputBuffer.append data }
    if c.isWriting then c else c.enableWriting
  else c

/-- `send_in_loop(data, len)`.  `r` answers the direct write, if one is tried. -/
def sendInLoop (c : TcpConnection) (data : Bytes) (r : WriteResult)
    (callback : TcpConnection → TcpConnection) : TcpConnection :=
  if c.isWriting = false ∧ c.outputBuffer.readableBytes = 0 then
    if 0 ≤ r.ret then
      let nwrote := r.ret.toNat
      let c := c.wrote (data.take nwrote)
      if data.length ≤ nwrote then callback c else c.appendOutput (data.drop nwrote)
    else if r.errno ≠ EWOULDBLOCK then c.handleError
    else c.appendOutput data
  else c.appendOutput data

/-- `send(data, len)` on the loop thread. -/
def send (c : TcpConnection) (data : Bytes) (r : WriteResult)
    (callback : TcpConnection → TcpConnection) : TcpConnection :=
  if c.state = .kConnected then c.sendInLoop data r callback else c

/-- `shutdown()` on the loop thread. -/
def shutdown (c : TcpConnection) : TcpConnection :=
  if c.state = .kConnected then
    let c := { c with state := .kDisconnecting }
    if c.isWriting then c else c.shutdownWrite
  else c

/-- Resumes the coroutine that waits for `output_buffer_` to be sent. -/
def resumeWriter (c : TcpConnection) : TcpConnection :=
  match c.writeCoroPending, c.writeCoro with
  | true, some h => { c with writeCoroPending := false, writeCoro := none }.scheduleCoro h
  | _, _ => c

/-- `handle_write()`.  `r` answers the write of all of `output_buffer_`. -/
def handleWrite (c : TcpConnection) (r : WriteResult)
    (callback : TcpConnection → TcpConnection) : TcpConnection :=
  if c.isWriting then
    if 0 < r.ret then
      let n := r.ret.toNat
      let c := c.wrote ((c.outputBuffer.peek c.outputBuffer.readableBytes).take n)
      let c := { c with outputBuffer := c.outputBuffer.retrieve n }
      if c.outputBuffer.readableBytes = 0 then
        -- the callback may queue more and change the state; only the state is looked at after it
        let c := (callback c.disableWriting).resumeWriter
        if c.state = .kDisconnecting then c.shutdownWrite else c
      else c
    else if r.errno ≠ EAGAIN ∧ r.errno ≠ EWOULDBLOCK then c.handleError
    else c
  else c

/-- `resume_write_coro(h)`. -/
def resumeWriteCoro (c : TcpConnection) (h : Coro) : TcpConnection :=
  let c := { c with writeCoro := some h, writeCoroPending := true }
  if c.isWriting = false ∧ 0 < c.outputBuffer.readableBytes then c.enableWriting else c

/-- `AsyncWrite{conn, data, len}::await_suspend(h)`. -/
def asyncWriteSuspend (c : TcpConnection) (h : Coro) (data : Bytes) (r : WriteResult)
    (callback : TcpConnection → TcpConnection) : TcpConnection :=
  let c := c.send data r callback
  if c.outputBuffer.readableBytes = 0 then c.scheduleCoro h else c.resumeWriteCoro h

/-! ## Reading -/

/-- `handle_read()`, where no `message_callback_` is set. -/
def handleRead (c : TcpConnection) (r : ReadResult) : TcpConnection :=
  let (n, buf) := c.inputBuffer.readFd r.incoming
  let c := { c with inputBuffer := buf }
  if 0 < n then
    match c.readCoroPending, c.readCoro with
    | true, some h => { c with readCoroPending := false, readCoro := none }.scheduleCoro h
    | _, _ => c
  else if n = 0 then c.handleClose
  else if r.errno ≠ EAGAIN ∧ r.errno ≠ EWOULDBLOCK then c.handleError
  else c

/-- `read_some()`. -/
def readSome (c : TcpConnection) (r : ReadResult) : Int × TcpConnection :=
  if 0 < c.inputBuffer.readableBytes then (c.inputBuffer.readableBytes, c)
  else
    let (n, buf) := c.inputBuffer.readFd r.incoming
    (n, { c with inputBuffer := buf })

/-- `resume_read_coro(h)`. -/
def resumeReadCoro (c : TcpConnection) (h : Coro) : TcpConnection :=
  let c := { c with readCoro := some h, readCoroPending := true }
  if c.isReading then c else c.enableReading

/-- `AsyncRead{conn, hint}::await_ready()`. -/
def asyncReadReady (c : TcpConnection) (hint : Nat) : Bool := hint ≤ c.inputBuffer.readableBytes

/-- `AsyncRead{conn, hint}::await_suspend(h)`. -/
def asyncReadSuspend (c : TcpConnection) (h : Coro) : TcpConnection :=
  if 0 < c.inputBuffer.readableBytes then c.scheduleCoro h else c.resumeReadCoro h

/-! ## The shape of a send -/

/-- The direct write is tried. -/
def TriesDirect (c : TcpConnection) : Prop :=
  c.isWriting = false ∧ c.outputBuffer.readableBytes = 0

instance (c : TcpConnection) : Decidable c.TriesDirect := inferInstanceAs (Decidable (_ ∧ _))

/-- What a send gives to the kernel. -/
def sendTaken (c : TcpConnection) (data : Bytes) (r : WriteResult) : Bytes :=
  if c.TriesDirect then data.take r.ret.toNat else []

/-- What a send that does not fail leaves for `output_buffer_`. -/
def sendRest (c : TcpConnection) (data : Bytes) (r : WriteResult) : Bytes :=
  if c.TriesDirect then data.drop r.ret.toNat else data

theorem sendTaken_append_sendRest (c : TcpConnection) (data : Bytes) (r : WriteResult) :
    c.sendTaken data r ++ c.sendRest data r = data := by
  unfold sendTaken sendRest
  split
  · exact List.take_append_drop _ _
  · rfl

/-- The direct write takes everything, so that the callback is invoked. -/
def SendCompletes (c : TcpConnection) (data : Bytes) (r : WriteResult) : Prop :=
  c.TriesDirect ∧ 0 ≤ r.ret ∧ data.length ≤ r.ret.toNat

/-- The direct write fails, so that the connection is closed. -/
def SendFails (c : TcpConnection) (r : WriteResult) : Prop :=
  c.TriesDirect ∧ r.ret < 0 ∧ r.errno ≠ EWOULDBLOCK

instance (c : TcpConnection) (data : Bytes) (r : WriteResult) : Decidable (c.SendCompletes data r) :=
  inferInstanceAs (Decidable (_ ∧ _ ∧ _))

instance (c : TcpConnection) (r : WriteResult) : Decidable (c.SendFails r) :=
  inferInstanceAs (Decidable (_ ∧ _ ∧ _))

/-- **What `send_in_loop` can do**: complete and call back, fail and close, or give a part to the
kernel and the rest to `output_buffer_`. -/
theorem sendInLoop_eq (c : TcpConnection) (data : Bytes) (r : WriteResult)
    (callback : TcpConnection → TcpConnection) :
    c.sendInLoop data r callback
      = if c.SendCompletes data r then callback (c.wrote data)
        else if c.SendFails r then c.handleError
        else (c.wrote (c.sendTaken data r)).appendOutput (c.sendRest data r) := by
  have hnone : c.wrote [] = c := by simp [wrote]
  have hsend : c.sendInLoop data r callback
      = if c.TriesDirect then
          if 0 ≤ r.ret then
            if data.length ≤ r.ret.toNat then callback (c.wrote (data.take r.ret.toNat))
            else (c.wrote (data.take r.ret.toNat)).appendOutput (data.drop r.ret.toNat)
          else if r.errno ≠ EWOULDBLOCK then c.handleError
          else c.appendOutput data
        else c.appendOutput data := rfl
  rw [hsend]
  by_cases hdirect : c.TriesDirect
  · rw [if_pos hdirect]
    by_cases hret : 0 ≤ r.ret
    · have hnofail : ¬ c.SendFails r := by
        intro h
        exact absurd h.2.1 (not_lt.mpr hret)
      rw [if_pos hret]
      by_cases hlen : data.length ≤ r.ret.toNat
      · have hall : data.take r.ret.toNat = data := List.take_of_length_le hlen
        simp only [SendCompletes, hdirect, hret, hlen, hall, true_and, if_true]
      · have hno : ¬ c.SendCompletes data r := fun h => hlen h.2.2
        simp only [if_neg hno, if_neg hnofail, if_neg hlen, sendTaken, sendRest, if_pos hdirect]
    · have hno : ¬ c.SendCompletes data r := fun h => hret h.2.1
      have hzero : r.ret.toNat = 0 := Int.toNat_eq_zero.mpr (by omega)
      rw [if_neg hret, if_neg hno]
      -- `EWOULDBLOCK` is no failure: the kernel took nothing and all of it is queued
      by_cases herr : r.errno ≠ EWOULDBLOCK
      · rw [if_pos herr, if_pos ⟨hdirect, by omega, herr⟩]
      · have hnofail : ¬ c.SendFails r := fun h => herr h.2.2
        simp only [if_neg herr, if_neg hnofail, sendTaken, sendRest, if_pos hdirect, hzero,
          List.take_zero, List.drop_zero, hnone]
  · have hno : ¬ c.SendCompletes data r := fun h => hdirect h.1
    have hnofail : ¬ c.SendFails r := fun h => hdirect h.1
    simp only [if_neg hno, if_neg hnofail, sendTaken, sendRest, if_neg hdirect, hnone]

end TcpConnection

end LightNet.Net
