/-
# LightNet.Net.Output — a connection delivers what it is given, in order.

`Armed` ties the output buffer to the write interest of the channel: the interest is set exactly when
unread bytes are left.  It decides between the two paths of `send_in_loop`, so a send can only go to
the kernel directly when nothing older waits.  Along every run of sends and writable events in which
nothing closes, the bytes the kernel has taken followed by the bytes that wait are the payloads, and
a writer is resumed only when nothing waits.
-/
import LightNet.Net.TcpConnection

namespace LightNet.Net.TcpConnection

open LightNet.Foundation LightNet.Core

/-! ## Write interest follows the output buffer -/

/-- The output buffer is in order, and write interest is set exactly when it holds something. -/
structure Armed (c : TcpConnection) : Prop where
  inv : c.outputBuffer.Inv
  writing_iff : c.isWriting = true ↔ c.outputBuffer.readable ≠ []

theorem Armed.triesDirect_iff {c : TcpConnection} (h : c.Armed) :
    c.TriesDirect ↔ c.outputBuffer.readable = [] := by
  have hbytes := h.inv.readableBytes_eq_length
  constructor
  · rintro ⟨-, hzero⟩
    exact List.length_eq_zero_iff.mp (hbytes ▸ hzero)
  · intro hnil
    refine ⟨?_, by rw [hbytes, hnil, List.length_nil]⟩
    cases hw : c.isWriting with
    | false => rfl
    | true => exact absurd hnil (h.writing_iff.mp hw)

theorem Armed.wrote {c : TcpConnection} (h : c.Armed) (bytes : Bytes) : (c.wrote bytes).Armed :=
  ⟨h.inv, h.writing_iff⟩

/-- What `appendOutput` leaves alone. -/
theorem appendOutput_frame (c : TcpConnection) (rest : Bytes) :
    (c.appendOutput rest).state = c.state ∧ (c.appendOutput rest).wire = c.wire
      ∧ (c.appendOutput rest).trace = c.trace := by
  unfold appendOutput
  split
  · dsimp only
    split <;> exact ⟨rfl, rfl, rfl⟩
  · exact ⟨rfl, rfl, rfl⟩

theorem appendOutput_armed {c : TcpConnection} (h : c.Armed) {rest : Bytes}
    (hfits : c.outputBuffer.Fits rest.length) :
    (c.appendOutput rest).Armed
      ∧ (c.appendOutput rest).outputBuffer.readable = c.outputBuffer.readable ++ rest := by
  unfold appendOutput
  split
  · rename_i hpos
    obtain ⟨hinv, hread, -⟩ := Buffer.append_spec h.inv hfits
    have hne : (c.outputBuffer.append rest).readable ≠ [] := by
      rw [hread]
      exact List.append_ne_nil_of_right_ne_nil _ (List.length_pos_iff.mp hpos)
    dsimp only
    split
    · rename_i hw
      exact ⟨⟨hinv, iff_of_true hw hne⟩, hread⟩
    · exact ⟨⟨hinv, iff_of_true rfl hne⟩, hread⟩
  · rename_i hzero
    have hnil : rest = [] := List.length_eq_zero_iff.mp (by omega)
    rw [hnil, List.append_nil]
    exact ⟨h, rfl⟩

/-- **One send that neither completes nor fails** keeps the interest right and the bytes in order. -/
theorem sendRest_armed {c : TcpConnection} (h : c.Armed) {data : Bytes} {r : WriteResult}
    (hfits : c.outputBuffer.Fits (c.sendRest data r).length) :
    ((c.wrote (c.sendTaken data r)).appendOutput (c.sendRest data r)).Armed
      ∧ ((c.wrote (c.sendTaken data r)).appendOutput (c.sendRest data r)).wire
          ++ ((c.wrote (c.sendTaken data r)).appendOutput (c.sendRest data r)).outputBuffer.readable
        = c.wire ++ c.outputBuffer.readable ++ data := by
  obtain ⟨harmed, hread⟩ := appendOutput_armed (h.wrote (c.sendTaken data r)) hfits
  obtain ⟨-, hwire, -⟩ := appendOutput_frame (c.wrote (c.sendTaken data r)) (c.sendRest data r)
  refine ⟨harmed, ?_⟩
  rw [hread, hwire]
  show c.wire ++ c.sendTaken data r ++ (c.outputBuffer.readable ++ c.sendRest data r) = _
  by_cases hdirect : c.TriesDirect
  · rw [h.triesDirect_iff.mp hdirect, List.nil_append, List.append_nil, List.append_assoc,
      sendTaken_append_sendRest]
  · rw [sendTaken, if_neg hdirect, sendRest, if_neg hdirect, List.append_nil, List.append_assoc]

/-! ## A writable event -/

/-- The connection after the kernel has taken `n` bytes of the output buffer. -/
def flushed (c : TcpConnection) (n : Nat) : TcpConnection :=
  { c.wrote (c.outputBuffer.readable.take n) with outputBuffer := c.outputBuffer.retrieve n }

/-- The event flushes the last bytes. -/
def FlushCompletes (c : TcpConnection) (r : WriteResult) : Prop :=
  c.isWriting = true ∧ 0 < r.ret ∧ c.outputBuffer.readableBytes ≤ r.ret.toNat

instance (c : TcpConnection) (r : WriteResult) : Decidable (c.FlushCompletes r) :=
  inferInstanceAs (Decidable (_ ∧ _ ∧ _))

/-- What happens once the last bytes are flushed. -/
def afterFlush (c : TcpConnection) (callback : TcpConnection → TcpConnection) : TcpConnection :=
  let c := (callback c.disableWriting).resumeWriter
  if c.state = .kDisconnecting then c.shutdownWrite else c

/-- **What `handle_write` can do**: flush the last bytes and go on, flush some, fail, or nothing. -/
theorem handleWrite_eq {c : TcpConnection} (hinv : c.outputBuffer.Inv) (r : WriteResult)
    (callback : TcpConnection → TcpConnection) :
    c.handleWrite r callback
      = if c.FlushCompletes r then (c.flushed r.ret.toNat).afterFlush callback
        else if c.isWriting = true ∧ 0 < r.ret then c.flushed r.ret.toNat
        else if c.isWriting = true ∧ r.errno ≠ EAGAIN ∧ r.errno ≠ EWOULDBLOCK then c.handleError
        else c := by
  have hzero : ((c.outputBuffer.retrieve r.ret.toNat).readableBytes = 0)
      ↔ c.outputBuffer.readableBytes ≤ r.ret.toNat := by
    rw [(Buffer.retrieve_inv hinv _).readableBytes_eq_length, Buffer.retrieve_readable hinv,
      List.length_drop, hinv.readableBytes_eq_length]
    omega
  have hhandle : c.handleWrite r callback
      = if c.isWriting = true then
          if 0 < r.ret then
            if (c.outputBuffer.retrieve r.ret.toNat).readableBytes = 0 then
              (c.flushed r.ret.toNat).afterFlush callback
            else c.flushed r.ret.toNat
          else if r.errno ≠ EAGAIN ∧ r.errno ≠ EWOULDBLOCK then c.handleError
          else c
        else c := by
    unfold handleWrite
    rw [hinv.peek_readableBytes]
    rfl
  rw [hhandle]
  by_cases hw : c.isWriting = true
  · by_cases hret : 0 < r.ret
    · by_cases hlast : c.outputBuffer.readableBytes ≤ r.ret.toNat
      · have hdone : c.FlushCompletes r := ⟨hw, hret, hlast⟩
        rw [if_pos hw, if_pos hret, if_pos (hzero.mpr hlast), if_pos hdone]
      · have hnot : ¬ c.FlushCompletes r := fun h => hlast h.2.2
        rw [if_pos hw, if_pos hret, if_neg (fun h => hlast (hzero.mp h)), if_neg hnot,
          if_pos ⟨hw, hret⟩]
    · have hnot : ¬ c.FlushCompletes r := fun h => hret h.2.1
      have hsome : ¬ (c.isWriting = true ∧ 0 < r.ret) := fun h => hret h.2
      rw [if_pos hw, if_neg hret, if_neg hnot, if_neg hsome]
      simp only [hw, true_and]
  · have hnot : ¬ c.FlushCompletes r := fun h => hw h.1
    have hsome : ¬ (c.isWriting = true ∧ 0 < r.ret) := fun h => hw h.1
    have herr : ¬ (c.isWriting = true ∧ r.errno ≠ EAGAIN ∧ r.errno ≠ EWOULDBLOCK) := fun h => hw h.1
    rw [if_neg hw, if_neg hnot, if_neg hsome, if_neg herr]

theorem flushed_inv {c : TcpConnection} (hinv : c.outputBuffer.Inv) (n : Nat) :
    (c.flushed n).outputBuffer.Inv := Buffer.retrieve_inv hinv n

theorem flushed_readable {c : TcpConnection} (hinv : c.outputBuffer.Inv) (n : Nat) :
    (c.flushed n).outputBuffer.readable = c.outputBuffer.readable.drop n :=
  Buffer.retrieve_readable hinv n

/-- Bytes flushed move from the buffer to the wire. -/
theorem flushed_bytes {c : TcpConnection} (hinv : c.outputBuffer.Inv) (n : Nat) :
    (c.flushed n).wire ++ (c.flushed n).outputBuffer.readable
      = c.wire ++ c.outputBuffer.readable := by
  rw [flushed_readable hinv]
  show c.wire ++ c.outputBuffer.readable.take n ++ _ = _
  rw [List.append_assoc, List.take_append_drop]

theorem FlushCompletes.readable {c : TcpConnection} {r : WriteResult} (h : c.FlushCompletes r)
    (hinv : c.outputBuffer.Inv) : (c.flushed r.ret.toNat).outputBuffer.readable = [] := by
  have hle := h.2.2
  rw [hinv.readableBytes_eq_length] at hle
  rw [flushed_readable hinv, List.drop_eq_nil_of_le hle]

/-- A flush that is not the last one leaves something waiting. -/
theorem flushed_readable_ne_nil {c : TcpConnection} {r : WriteResult} (hinv : c.outputBuffer.Inv)
    (hsome : c.isWriting = true ∧ 0 < r.ret) (hpart : ¬ c.FlushCompletes r) :
    (c.flushed r.ret.toNat).outputBuffer.readable ≠ [] := by
  rw [flushed_readable hinv]
  intro hnil
  have hle : c.outputBuffer.readableBytes ≤ r.ret.toNat := by
    rw [hinv.readableBytes_eq_length]
    exact List.drop_eq_nil_iff.mp hnil
  exact hpart ⟨hsome.1, hsome.2, hle⟩

/-- Once nothing waits and the interest is off, the two agree again. -/
theorem FlushCompletes.armed {c : TcpConnection} {r : WriteResult} (h : c.FlushCompletes r)
    (hinv : c.outputBuffer.Inv) : (c.flushed r.ret.toNat).disableWriting.Armed := by
  refine ⟨flushed_inv hinv _, iff_of_false ?_ ?_⟩
  · show ¬ false = true
    exact Bool.false_ne_true
  · exact not_not.mpr (h.readable hinv)

/-! ## Runs -/

/-- A call of `send_in_loop`, a writable event, or a coroutine that suspends in `AsyncWrite`. -/
inductive OutputOp where
  | sendInLoop (data : Bytes) (r : WriteResult)
  | handleWrite (r : WriteResult)
  | asyncWrite (h : Coro) (data : Bytes) (r : WriteResult)
  deriving DecidableEq

/-- The connection after one operation, with no `write_complete_callback_` set. -/
def outputStep (c : TcpConnection) : OutputOp → TcpConnection
  | .sendInLoop data r => c.sendInLoop data r id
  | .handleWrite r => c.handleWrite r id
  | .asyncWrite h data r => c.asyncWriteSuspend h data r id

/-- The payload of an operation. -/
def OutputOp.payload : OutputOp → Bytes
  | .sendInLoop data _ => data
  | .handleWrite _ => []
  | .asyncWrite _ data _ => data

/-- The runs considered: what a send leaves over fits the output buffer, and nothing closes.  The
kernel may answer anything that does not close the connection. -/
def OutputOk (c : TcpConnection) (op : OutputOp) : Prop :=
  (match op with
    | .sendInLoop data r | .asyncWrite _ data r => c.outputBuffer.Fits (c.sendRest data r).length
    | .handleWrite _ => True)
  ∧ (c.outputStep op).state = .kConnected

instance (c : TcpConnection) : (op : OutputOp) → Decidable (c.OutputOk op)
  | .sendInLoop _ _ => inferInstanceAs (Decidable (_ ∧ _))
  | .handleWrite _ => inferInstanceAs (Decidable (True ∧ _))
  | .asyncWrite _ _ _ => inferInstanceAs (Decidable (_ ∧ _))

/-- A coroutine is scheduled only with nothing unsent. -/
def Event.Sent : Event → Prop
  | .scheduleCoro _ unsent => unsent = 0
  | _ => True

/-- What every state of such a run satisfies; `sent` is the concatenation of the payloads so far. -/
structure Delivering (c : TcpConnection) (sent : Bytes) : Prop where
  armed : c.Armed
  connected : c.state = .kConnected
  bytes_eq : c.wire ++ c.outputBuffer.readable = sent
  scheduled : ∀ e ∈ c.trace, Event.Sent e

/-- A connection that has just been established. -/
def established : TcpConnection := connectEstablished {}

theorem established_armed : established.Armed :=
  ⟨Buffer.new_inv, by simp [established, connectEstablished, enableReading]⟩

theorem established_delivering : established.Delivering [] where
  armed := established_armed
  connected := rfl
  bytes_eq := Buffer.new_readable
  scheduled := by simp [established, connectEstablished, enableReading]

/-! ## Every operation delivers -/

theorem handleError_state (c : TcpConnection) : c.handleError.state = .kDisconnected := rfl

/-- A send keeps delivering. -/
theorem sendInLoop_delivering {c : TcpConnection} {sent : Bytes} (h : c.Delivering sent)
    {data : Bytes} {r : WriteResult} (hfits : c.outputBuffer.Fits (c.sendRest data r).length)
    (hopen : (c.sendInLoop data r id).state = .kConnected) :
    (c.sendInLoop data r id).Delivering (sent ++ data) := by
  rw [sendInLoop_eq] at hopen ⊢
  split
  · -- the kernel took all of it; nothing older waited, or the write would not have been tried
    rename_i hdone
    have hnil := h.armed.triesDirect_iff.mp hdone.1
    refine ⟨h.armed.wrote data, h.connected, ?_, h.scheduled⟩
    rw [← h.bytes_eq]
    show c.wire ++ data ++ c.outputBuffer.readable = _
    rw [hnil, List.append_nil, List.append_nil]
  · rename_i hdone
    rw [if_neg hdone] at hopen
    split
    · -- `handle_error` would have closed the connection
      rename_i hfail
      rw [if_pos hfail, handleError_state] at hopen
      exact absurd hopen (by decide)
    · obtain ⟨harmed, hbytes⟩ := sendRest_armed h.armed hfits
      obtain ⟨hstate, -, htrace⟩ :=
        appendOutput_frame (c.wrote (c.sendTaken data r)) (c.sendRest data r)
      refine ⟨harmed, by rw [hstate]; exact h.connected, by rw [hbytes, h.bytes_eq], ?_⟩
      rw [htrace]
      exact h.scheduled

/-- Resuming a waiting writer touches only the coroutine fields and the trace. -/
theorem resumeWriter_frame (c : TcpConnection) :
    c.resumeWriter.state = c.state ∧ c.resumeWriter.isWriting = c.isWriting
      ∧ c.resumeWriter.outputBuffer = c.outputBuffer ∧ c.resumeWriter.wire = c.wire
      ∧ ∀ e ∈ c.resumeWriter.trace, e ∈ c.trace ∨ ∃ h, e = .scheduleCoro h c.outputBuffer.readableBytes
    := by
  unfold resumeWriter
  split
  · -- a writer waits: it is scheduled, and that goes to the trace
    refine ⟨rfl, rfl, rfl, rfl, ?_⟩
    intro e he
    rcases List.mem_append.mp he with h | h
    · exact .inl h
    · exact .inr ⟨_, List.mem_singleton.mp h⟩
  · exact ⟨rfl, rfl, rfl, rfl, fun e he => .inl he⟩

theorem scheduleCoro_delivering {c : TcpConnection} {sent : Bytes} (h : c.Delivering sent) (co : Coro)
    (hempty : c.outputBuffer.readableBytes = 0) : (c.scheduleCoro co).Delivering sent := by
  refine ⟨⟨h.armed.inv, h.armed.writing_iff⟩, h.connected, h.bytes_eq, ?_⟩
  intro e he
  rcases List.mem_append.mp he with he | he
  · exact h.scheduled e he
  · rw [List.mem_singleton.mp he]
    exact hempty

/-- A writable event keeps delivering. -/
theorem handleWrite_delivering {c : TcpConnection} {sent : Bytes} (h : c.Delivering sent)
    {r : WriteResult} (hopen : (c.handleWrite r id).state = .kConnected) :
    (c.handleWrite r id).Delivering sent := by
  have hinv := h.armed.inv
  have hflushed : (c.flushed r.ret.toNat).wire ++ (c.flushed r.ret.toNat).outputBuffer.readable
      = sent := by
    rw [flushed_bytes hinv, h.bytes_eq]
  rw [handleWrite_eq hinv] at hopen ⊢
  split
  · -- the last bytes are out: interest off, a waiting writer is resumed
    rename_i hdone
    have hnil := hdone.readable hinv
    have hzero : (c.flushed r.ret.toNat).outputBuffer.readableBytes = 0 := by
      rw [(flushed_inv hinv _).readableBytes_eq_length, hnil, List.length_nil]
    obtain ⟨hstate, hw, hbuf, hwire, htrace⟩ :=
      resumeWriter_frame (c.flushed r.ret.toNat).disableWriting
    have hconn : (c.flushed r.ret.toNat).disableWriting.resumeWriter.state = .kConnected := by
      rw [hstate]
      exact h.connected
    have hafter : (c.flushed r.ret.toNat).afterFlush id
        = (c.flushed r.ret.toNat).disableWriting.resumeWriter := by
      simp only [afterFlush, id_eq, hconn, reduceCtorEq, if_false]
    rw [hafter]
    have harmed := hdone.armed hinv
    refine ⟨⟨by rw [hbuf]; exact harmed.inv, by rw [hw, hbuf]; exact harmed.writing_iff⟩, hconn,
      ?_, ?_⟩
    · rw [hwire, hbuf]
      exact hflushed
    · intro e he
      rcases htrace e he with he | ⟨co, rfl⟩
      · exact h.scheduled e he
      · exact hzero
  · rename_i hdone
    rw [if_neg hdone] at hopen
    split
    · -- a part is out, the rest still waits
      rename_i hsome
      have hne := flushed_readable_ne_nil hinv hsome hdone
      exact ⟨⟨flushed_inv hinv _, iff_of_true hsome.1 hne⟩, h.connected, hflushed, h.scheduled⟩
    · rename_i hsome
      rw [if_neg hsome] at hopen
      split
      · rename_i hfail
        rw [if_pos hfail, handleError_state] at hopen
        exact absurd hopen (by decide)
      · exact h

/-- Suspending in `AsyncWrite` does not change the state. -/
theorem asyncWriteSuspend_state (c : TcpConnection) (co : Coro) (data : Bytes) (r : WriteResult)
    (callback : TcpConnection → TcpConnection) :
    (c.asyncWriteSuspend co data r callback).state = (c.send data r callback).state := by
  unfold asyncWriteSuspend
  dsimp only
  split
  · rfl
  · unfold resumeWriteCoro
    dsimp only
    split <;> rfl

theorem outputStep_delivering {c : TcpConnection} {sent : Bytes} (h : c.Delivering sent)
    {op : OutputOp} (hok : c.OutputOk op) : (c.outputStep op).Delivering (sent ++ op.payload) := by
  cases op with
  | sendInLoop data r => exact sendInLoop_delivering h hok.1 hok.2
  | handleWrite r =>
      simp only [OutputOp.payload, List.append_nil]
      exact handleWrite_delivering h hok.2
  | asyncWrite co data r =>
      obtain ⟨hfits, hopen⟩ := hok
      have hsend : c.send data r id = c.sendInLoop data r id := by
        rw [send, if_pos h.connected]
      simp only [outputStep, asyncWriteSuspend_state, hsend] at hopen
      have hd := sendInLoop_delivering h hfits hopen
      simp only [outputStep, OutputOp.payload, asyncWriteSuspend, hsend]
      split
      · rename_i hzero
        exact scheduleCoro_delivering hd co hzero
      · rename_i hpos
        rw [resumeWriteCoro, if_neg]
        · exact ⟨⟨hd.armed.inv, hd.armed.writing_iff⟩, hd.connected, hd.bytes_eq, hd.scheduled⟩
        · -- bytes wait, so the interest is set already
          rintro ⟨hw, -⟩
          apply hpos
          have hnot : ¬ (c.sendInLoop data r id).isWriting = true := by
            rw [show (c.sendInLoop data r id).isWriting = false from hw]
            exact Bool.false_ne_true
          have hnil := not_not.mp (mt hd.armed.writing_iff.mpr hnot)
          rw [hd.armed.inv.readableBytes_eq_length, hnil, List.length_nil]

/-! ## The contract -/

theorem run_delivering {ops : List OutputOp} {c : TcpConnection} {sent : Bytes}
    (h : c.Delivering sent) (hok : Admissible outputStep OutputOk c ops) :
    (run outputStep c ops).Delivering (sent ++ ops.flatMap OutputOp.payload) := by
  induction ops generalizing c sent with
  | nil => rwa [List.flatMap_nil, List.append_nil]
  | cons op ops ih =>
      rw [run_cons, List.flatMap_cons, ← List.append_assoc]
      exact ih (outputStep_delivering h hok.1) hok.2

/-- **TCP output is delivered in order, without loss or duplication.** In every state of a run of
sends and writable events in which nothing closes, what the kernel has taken followed by what waits
is the concatenation of the payloads; write interest is set exactly when something waits; and every
writer was scheduled at a moment when nothing waited. -/
theorem output_in_order (ops : List OutputOp) (hok : Admissible outputStep OutputOk established ops) :
    (run outputStep established ops).wire ++ (run outputStep established ops).outputBuffer.readable
        = ops.flatMap OutputOp.payload
      ∧ ((run outputStep established ops).isWriting = true
          ↔ (run outputStep established ops).outputBuffer.readable ≠ [])
      ∧ ∀ h unsent, Event.scheduleCoro h unsent ∈ (run outputStep established ops).trace →
          unsent = 0 := by
  have h := run_delivering established_delivering hok
  rw [List.nil_append] at h
  exact ⟨h.bytes_eq, h.armed.writing_iff, fun co unsent he => h.scheduled _ he⟩

/-- A write cut short after one byte, a coroutine that joins the queue, and the flush that resumes
it. -/
theorem output_in_order_sample :
    (run outputStep established [.sendInLoop [1, 2, 3] ⟨1, 0⟩, .asyncWrite 7 [4] ⟨0, 0⟩,
      .handleWrite ⟨2, 0⟩]).wire ++ [4] = [1, 2, 3, 4] := by
  have h := (output_in_order [.sendInLoop [1, 2, 3] ⟨1, 0⟩, .asyncWrite 7 [4] ⟨0, 0⟩,
    .handleWrite ⟨2, 0⟩] (by decide +kernel)).1
  have hrest : (run outputStep established [.sendInLoop [1, 2, 3] ⟨1, 0⟩, .asyncWrite 7 [4] ⟨0, 0⟩,
      .handleWrite ⟨2, 0⟩]).outputBuffer.readable = [4] := by
    decide +kernel
  rw [hrest] at h
  exact h

end LightNet.Net.TcpConnection
