/-
# LightNet.Net.Delivered — what the peer gets, whatever happens to the connection.

A `Silent` act puts no bytes into the connection: reads, writable events, closes, shutdowns, from any
thread, in any order.  When all sends are those of one party, the bytes the kernel has taken followed
by the bytes that wait are always a front part of what that party has sent on a connected connection,
and all of it until the first `handle_close` (`Delivers`).  A half-closed connection keeps the whole.
-/
import LightNet.Net.Lifecycle

namespace LightNet.Net

open LightNet.Foundation LightNet.Core

/-! ## Acts that send nothing -/

/-- A callback that puts no bytes into the connection. -/
def Script.Silent : Script → Prop
  | .done => True
  | .send _ _ _ _ => False
  | .shutdown rest | .forceClose rest => rest.Silent

/-- A closure that puts no bytes into the connection. -/
def Closure.Silent : Closure → Prop
  | .send _ => False
  | .shutdown | .forceClose => True

/-- An act that puts no bytes into the connection. -/
def Act.Silent : Act → Prop
  | .handleRead _ onMessage => onMessage.Silent
  | .handleWrite _ onComplete => onComplete.Silent
  | .send _ _ _ => False
  | .post cl => cl.Silent
  | _ => True

/-- A callback is silent or not, call by call. -/
def Script.Silent.decidable : (sc : Script) → Decidable sc.Silent
  | .done => isTrue trivial
  | .send _ _ _ _ => isFalse id
  | .shutdown rest | .forceClose rest => Script.Silent.decidable rest

instance (sc : Script) : Decidable sc.Silent := Script.Silent.decidable sc

instance : (cl : Closure) → Decidable cl.Silent
  | .send _ => isFalse id
  | .shutdown | .forceClose => isTrue trivial

instance : (a : Act) → Decidable a.Silent
  | .handleRead _ onMessage => inferInstanceAs (Decidable onMessage.Silent)
  | .handleWrite _ onComplete => inferInstanceAs (Decidable onComplete.Silent)
  | .send _ _ _ => isFalse id
  | .post cl => inferInstanceAs (Decidable cl.Silent)
  | .connectEstablished | .connectDestroyed | .handleClose | .handleError | .shutdown | .forceClose
  | .retrieve _ | .readSome _ | .awaitInput _ _ | .awaitOutput _ | .runClosure _ _ => isTrue trivial

namespace TcpConnection

/-! ## Calls that leave the output alone -/

/-- From `c` to `c'` no byte moves; the write interest changes at most by a close. -/
structure Keeps (c c' : TcpConnection) : Prop where
  wire : c'.wire = c.wire
  output : c'.outputBuffer = c.outputBuffer
  closes_le : c.closes ≤ c'.closes
  writing : c'.closes = 0 → c'.isWriting = c.isWriting

theorem Keeps.refl (c : TcpConnection) : c.Keeps c := ⟨rfl, rfl, le_refl _, fun _ => rfl⟩

theorem Keeps.trans {a b c : TcpConnection} (hab : a.Keeps b) (hbc : b.Keeps c) : a.Keeps c where
  wire := hbc.wire.trans hab.wire
  output := hbc.output.trans hab.output
  closes_le := hab.closes_le.trans hbc.closes_le
  writing h := (hbc.writing h).trans (hab.writing (Nat.le_zero.mp (h ▸ hbc.closes_le)))

theorem handleClose_keeps (c : TcpConnection) : c.Keeps c.handleClose := by
  have hcloses := handleClose_closes c
  exact ⟨rfl, rfl, by omega, fun h => by omega⟩

theorem shutdownInLoop_keeps (c : TcpConnection) : c.Keeps c.shutdownInLoop := by
  have hcloses := shutdownInLoop_closes c
  have hsame : c.shutdownInLoop.outputBuffer = c.outputBuffer
      ∧ c.shutdownInLoop.wire = c.wire ∧ c.shutdownInLoop.isWriting = c.isWriting := by
    unfold shutdownInLoop
    dsimp only
    split <;> exact ⟨rfl, rfl, rfl⟩
  exact ⟨hsame.2.1, hsame.1, by omega, fun _ => hsame.2.2⟩

theorem shutdown_keeps (c : TcpConnection) : c.Keeps c.shutdown := by
  rw [shutdown_eq]
  split
  · exact shutdownInLoop_keeps c
  · exact .refl c

theorem forceClose_keeps (c : TcpConnection) : c.Keeps c.forceClose := by
  unfold forceClose
  split
  · exact handleClose_keeps c
  · exact .refl c

theorem scheduleCoro_keeps (c : TcpConnection) (h : Coro) : c.Keeps (c.scheduleCoro h) :=
  ⟨rfl, rfl, (scheduleCoro_closes c h).ge, fun _ => rfl⟩

theorem resumeReadCoro_keeps (c : TcpConnection) (h : Coro) : c.Keeps (c.resumeReadCoro h) := by
  unfold resumeReadCoro
  dsimp only
  split <;> exact ⟨rfl, rfl, le_refl _, fun _ => rfl⟩

theorem resumeWriter_keeps (c : TcpConnection) : c.Keeps c.resumeWriter := by
  obtain ⟨-, hwriting, houtput, hwire, -⟩ := resumeWriter_frame c
  exact ⟨hwire, houtput, (resumeWriter_spec c).2.2.2.1.ge, fun _ => hwriting⟩

theorem readSome_keeps (c : TcpConnection) (r : ReadResult) : c.Keeps (c.readSome r).2 := by
  unfold readSome
  split <;> exact ⟨rfl, rfl, le_refl _, fun _ => rfl⟩

theorem invoke_keeps {sc : Script} (hsilent : sc.Silent) (c : TcpConnection) :
    c.Keeps (sc.invoke c) := by
  induction sc generalizing c with
  | done => exact .refl c
  | send data r nested rest => exact hsilent.elim
  | shutdown rest ih => exact (shutdown_keeps c).trans (ih hsilent c.shutdown)
  | forceClose rest ih => exact (forceClose_keeps c).trans (ih hsilent c.forceClose)

theorem handleReadWith_keeps {onMessage : Script} (hsilent : onMessage.Silent) (c : TcpConnection)
    (r : ReadResult) : c.Keeps (c.handleReadWith r onMessage.invoke) := by
  have hfilled : c.Keeps (c.filled r) := ⟨rfl, rfl, le_refl _, fun _ => rfl⟩
  rw [handleReadWith_eq]
  split
  · split
    · rename_i h _ _
      have hcleared : c.Keeps { c.filled r with readCoroPending := false, readCoro := none } :=
        ⟨rfl, rfl, le_refl _, fun _ => rfl⟩
      exact hcleared.trans (scheduleCoro_keeps _ h)
    · exact hfilled.trans (invoke_keeps hsilent _)
  · split
    · exact hfilled.trans (handleClose_keeps _)
    · exact hfilled

theorem awaitInput_keeps (c : TcpConnection) (h : Coro) (hint : Nat) :
    c.Keeps (c.awaitInput h hint) := by
  unfold awaitInput asyncReadSuspend
  split
  · exact .refl c
  · split
    · exact scheduleCoro_keeps c h
    · exact resumeReadCoro_keeps c h

/-- Once the last bytes are flushed nothing moves any more. -/
theorem afterFlush_keeps {onComplete : Script} (hsilent : onComplete.Silent) (c : TcpConnection) :
    c.disableWriting.Keeps (c.afterFlush onComplete.invoke) := by
  have hresumed : c.disableWriting.Keeps (onComplete.invoke c.disableWriting).resumeWriter :=
    (invoke_keeps hsilent _).trans (resumeWriter_keeps _)
  unfold afterFlush
  dsimp only
  split
  · exact hresumed.trans ⟨rfl, rfl, (shutdownWrite_closes _).ge, fun _ => rfl⟩
  · exact hresumed

/-! ## The account of the bytes -/

/-- The bytes taken and the bytes that wait are a front part of `sent`, and all of it as long as
`handle_close` has not run. -/
structure Accounts (c : TcpConnection) (sent : Bytes) : Prop where
  inv : c.outputBuffer.Inv
  front : c.wire ++ c.outputBuffer.readable <+: sent
  whole : c.closes = 0 → c.Armed ∧ c.wire ++ c.outputBuffer.readable = sent

theorem Accounts.keeps {c c' : TcpConnection} {sent : Bytes} (h : c.Accounts sent)
    (hkeeps : c.Keeps c') : c'.Accounts sent where
  inv := by
    rw [hkeeps.output]
    exact h.inv
  front := by
    rw [hkeeps.wire, hkeeps.output]
    exact h.front
  whole hopen := by
    have hle := hkeeps.closes_le
    obtain ⟨harmed, hbytes⟩ := h.whole (by omega)
    refine ⟨⟨?_, ?_⟩, ?_⟩
    · rw [hkeeps.output]
      exact harmed.inv
    · rw [hkeeps.writing hopen, hkeeps.output]
      exact harmed.writing_iff
    · rw [hkeeps.wire, hkeeps.output]
      exact hbytes

/-! ## What the connection does -/

/-- **A writable event** moves bytes from the buffer to the wire. -/
theorem Accounts.handleWrite {c : TcpConnection} {sent : Bytes} (h : c.Accounts sent)
    {onComplete : Script} (hsilent : onComplete.Silent) (r : WriteResult) :
    (c.handleWrite r onComplete.invoke).Accounts sent := by
  have hbytes := flushed_bytes h.inv r.ret.toNat
  have hfront : (c.flushed r.ret.toNat).wire ++ (c.flushed r.ret.toNat).outputBuffer.readable
      <+: sent := by
    rw [hbytes]
    exact h.front
  rw [handleWrite_eq h.inv]
  split
  · -- the last bytes: interest off, then the callback and the waiting writer
    rename_i hlast
    have hdone : (c.flushed r.ret.toNat).disableWriting.Accounts sent := by
      refine ⟨flushed_inv h.inv _, hfront, fun hopen => ⟨hlast.armed h.inv, ?_⟩⟩
      exact hbytes.trans (h.whole hopen).2
    exact hdone.keeps (afterFlush_keeps hsilent _)
  · rename_i hpart
    split
    · -- a part is out, the rest still waits
      rename_i hsome
      have hne := flushed_readable_ne_nil h.inv hsome hpart
      refine ⟨flushed_inv h.inv _, hfront, fun hopen => ⟨⟨flushed_inv h.inv _, ?_⟩, ?_⟩⟩
      · exact iff_of_true hsome.1 hne
      · exact hbytes.trans (h.whole hopen).2
    · split
      · exact h.keeps (handleClose_keeps c)
      · exact h

/-- **A coroutine that waits for its output** changes no byte, and the interest only where bytes wait
on a connection that has been closed. -/
theorem Accounts.awaitOutput {c : TcpConnection} {sent : Bytes} (h : c.Accounts sent) (co : Coro) :
    (c.awaitOutput co).Accounts sent := by
  unfold TcpConnection.awaitOutput
  split
  · exact h.keeps (scheduleCoro_keeps c co)
  · have hwaits : ({ c with writeCoro := some co, writeCoroPending := true } : TcpConnection).Accounts
        sent := h.keeps ⟨rfl, rfl, le_refl _, fun _ => rfl⟩
    unfold resumeWriteCoro
    dsimp only
    split
    · rename_i hidle
      refine ⟨hwaits.inv, hwaits.front, fun hopen => ?_⟩
      -- bytes that wait on an open connection have the interest set already
      obtain ⟨harmed, -⟩ := hwaits.whole hopen
      have hnil : c.outputBuffer.readable = [] := by
        by_contra hne
        have hwriting : c.isWriting = true := harmed.writing_iff.mpr hne
        exact absurd (hidle.1.symm.trans hwriting) Bool.false_ne_true
      have hzero := h.inv.readableBytes_eq_length
      rw [hnil, List.length_nil] at hzero
      exact absurd hidle.2 (by omega)
    · exact hwaits

/-- **A send on a connection that is open** adds its payload, or fails and closes. -/
theorem Accounts.sendInLoop {c : TcpConnection} {sent : Bytes} (h : c.Accounts sent)
    (hopen : c.closes = 0) {data : Bytes} {r : WriteResult}
    (hfits : c.outputBuffer.Fits (c.sendRest data r).length) {onComplete : Script}
    (hsilent : onComplete.Silent) :
    (c.sendInLoop data r onComplete.invoke).Accounts (sent ++ data) := by
  obtain ⟨harmed, hbytes⟩ := h.whole hopen
  rw [sendInLoop_eq]
  split
  · rename_i hall
    have hnil := harmed.triesDirect_iff.mp hall.1
    have hwrote : (c.wrote data).wire ++ (c.wrote data).outputBuffer.readable = sent ++ data := by
      rw [← hbytes]
      show c.wire ++ data ++ c.outputBuffer.readable = _
      rw [hnil, List.append_nil, List.append_nil]
    have haccounts : (c.wrote data).Accounts (sent ++ data) :=
      ⟨harmed.inv, hwrote ▸ List.prefix_refl _, fun _ => ⟨harmed.wrote data, hwrote⟩⟩
    exact haccounts.keeps (invoke_keeps hsilent _)
  · split
    · -- the failed write gives nothing to the kernel and closes
      have hfront : c.wire ++ c.outputBuffer.readable <+: sent ++ data :=
        h.front.trans (List.prefix_append _ _)
      have hcloses := handleClose_closes c
      exact ⟨h.inv, hfront, fun hzero => absurd (hcloses.symm.trans hzero) (Nat.succ_ne_zero _)⟩
    · obtain ⟨harmed', hbytes'⟩ := sendRest_armed harmed hfits
      have hsent := hbytes'.trans (congrArg (· ++ data) hbytes)
      exact ⟨harmed'.inv, hsent ▸ List.prefix_refl _, fun _ => ⟨harmed', hsent⟩⟩

end TcpConnection

/-! ## Whole lives -/

namespace Life

/-- All the bytes in the connection are those of `sent`, and no queued closure will send others. -/
structure Delivers (s : Life) (sent : Bytes) : Prop where
  accounts : s.conn.Accounts sent
  queue : ∀ cl ∈ s.queue, cl.Silent
  closed : s.Closed → s.conn.state ≠ .kConnected

variable {s : Life} {sent : Bytes}

/-- A connection that is connected has not been closed. -/
theorem Delivers.open (h : s.Delivers sent) (hconn : s.conn.state = .kConnected) :
    s.conn.closes = 0 := by
  by_contra hne
  exact h.closed (Nat.pos_of_ne_zero hne) hconn

/-- **While it is connected, nothing is lost.** -/
theorem Delivers.connected (h : s.Delivers sent) (hconn : s.conn.state = .kConnected) :
    s.conn.wire ++ s.conn.outputBuffer.readable = sent := (h.accounts.whole (h.open hconn)).2

/-- A closed connection is not connected, nor will it be. -/
theorem Delivers.act_closed (h : s.Delivers sent) {a : Act} (hestablish : a ≠ .connectEstablished) :
    (s.act a).Closed → (s.act a).conn.state ≠ .kConnected := by
  intro hclosed
  rcases (act_closed_iff s a).mp hclosed with hbefore | hnow
  · exact act_not_connected (h.closed hbefore) hestablish
  · have hshut := ((act_spec s a).closed hnow).1
    show (s.onConn a).state ≠ .kConnected
    rw [hshut.state]
    decide

/-- **An act that sends nothing** leaves the account as it is. -/
theorem Delivers.act (h : s.Delivers sent) {a : Act} (hsilent : a.Silent)
    (hestablish : a ≠ .connectEstablished) : (s.act a).Delivers sent := by
  have hacc := h.accounts
  have hclosed := h.act_closed hestablish
  have hsame : s.conn.Keeps (s.onConn a) → (s.act a).conn.Accounts sent := hacc.keeps
  cases a with
  | connectEstablished => exact absurd rfl hestablish
  | connectDestroyed | retrieve n =>
      exact ⟨hsame ⟨rfl, rfl, le_refl _, fun _ => rfl⟩, h.queue, hclosed⟩
  | handleClose | handleError => exact ⟨hsame s.conn.handleClose_keeps, h.queue, hclosed⟩
  | handleRead r onMessage =>
      exact ⟨hsame (TcpConnection.handleReadWith_keeps hsilent s.conn r), h.queue, hclosed⟩
  | handleWrite r onComplete => exact ⟨hacc.handleWrite hsilent r, h.queue, hclosed⟩
  | send data r onComplete => exact hsilent.elim
  | shutdown => exact ⟨hsame s.conn.shutdown_keeps, h.queue, hclosed⟩
  | forceClose => exact ⟨hsame s.conn.forceClose_keeps, h.queue, hclosed⟩
  | readSome r => exact ⟨hsame (s.conn.readSome_keeps r), h.queue, hclosed⟩
  | awaitInput co hint => exact ⟨hsame (s.conn.awaitInput_keeps co hint), h.queue, hclosed⟩
  | awaitOutput co => exact ⟨hacc.awaitOutput co, h.queue, hclosed⟩
  | post cl =>
      refine ⟨hsame (.refl _), ?_, hclosed⟩
      show ∀ cl' ∈ (if cl.Accepted s.conn.state then s.queue ++ [cl] else s.queue), cl'.Silent
      split
      · exact List.forall_mem_append.mpr ⟨h.queue, List.forall_mem_singleton.mpr hsilent⟩
      · exact h.queue
  | runClosure r onComplete =>
      refine ⟨hsame ?_, fun cl hcl => h.queue cl (List.mem_of_mem_tail hcl), hclosed⟩
      simp only [onConn]
      split
      · exact .refl _
      · rename_i cl rest hqueue
        have hcl : cl.Silent := h.queue cl (hqueue ▸ List.mem_cons_self)
        cases cl with
        | send data => exact hcl.elim
        | shutdown => exact s.conn.shutdownInLoop_keeps
        | forceClose => exact s.conn.handleClose_keeps

/-- **A send** adds its payload while the connection is connected, and nothing afterwards. -/
theorem Delivers.send (h : s.Delivers sent) {data : Bytes} {r : WriteResult} {onComplete : Script}
    (hsilent : onComplete.Silent)
    (hfits : s.conn.state = .kConnected → s.conn.outputBuffer.Fits (s.conn.sendRest data r).length) :
    (s.act (.send data r onComplete)).Delivers
      (if s.conn.state = .kConnected then sent ++ data else sent) := by
  have hclosed := h.act_closed (a := .send data r onComplete) nofun
  refine ⟨?_, h.queue, hclosed⟩
  show (s.conn.send data r onComplete.invoke).Accounts _
  unfold TcpConnection.send
  split
  · rename_i hconn
    exact h.accounts.sendInLoop (h.open hconn) (hfits hconn) hsilent
  · exact h.accounts

/-- The connection has just been established. -/
theorem delivers_established : (Life.act {} .connectEstablished).Delivers [] := by
  have harmed := TcpConnection.established_armed
  have hbytes : TcpConnection.established.wire ++ TcpConnection.established.outputBuffer.readable
      = [] := TcpConnection.established_delivering.bytes_eq
  refine ⟨⟨harmed.inv, hbytes ▸ List.prefix_refl _, fun _ => ⟨harmed, hbytes⟩⟩, nofun, ?_⟩
  intro hclosed
  exact absurd hclosed (by decide)

end Life

end LightNet.Net
