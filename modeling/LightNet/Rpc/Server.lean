/-
# LightNet.Rpc.Server — the loop of `RpcServer::handle_connection`.

One turn decodes every complete message in the buffer and serves the requests among them.  `decode`
answers `false` for a frame that is incomplete and for one that can never be decoded, and the turn
ends in the same way for both: with the bytes still there, `AsyncRead{conn, 1}` is ready at once.
So the loop settles exactly on bytes that are whole frames (`settles_iff`).
-/
import LightNet.Coro.Handler
import LightNet.Rpc.Framing

namespace LightNet.Rpc.RpcServer

open LightNet.Foundation LightNet.Core LightNet.Net LightNet.Coro
open RpcCodec (Encodable decode decodeLoop decodeAll frame framing readFrame)

/-- The coroutine between two iterations. -/
structure Session where
  conn : TcpConnection
  served : Nat

/-- The inner `while (decode(...))`: `none` when a request does not come back. -/
def serveLoop (world : Dispatcher RpcMessage) : Nat → Session → RpcMessage → Option Session
  | 0, s, _ => some s
  | fuel + 1, s, req =>
      match decode s.conn.inputBuffer req with
      | (false, buf, _) => some { s with conn := { s.conn with inputBuffer := buf } }
      | (true, buf, req) =>
          let conn := { s.conn with inputBuffer := buf }
          if req.type = .kRequest then
            match world.serve s.served req conn with
            | none => none
            | some conn => serveLoop world fuel { conn, served := s.served + 1 } req
          else serveLoop world fuel { s with conn } req

/-- One iteration of the loop in `handle_connection`, by the coroutine `h`. -/
def turn (world : Dispatcher RpcMessage) (h : Coro) (r : ReadResult) (s : Session) :
    Turn Session Stop :=
  if s.conn.isConnected then
    match awaitRead s.conn r with
    | none => .stop (.suspended (s.conn.asyncReadSuspend h))
    | some conn =>
        match serveLoop world (conn.inputBuffer.readableBytes + 1) { s with conn } {} with
        | none => .stop (.away conn)
        | some s => .again s
  else .stop (.finished s.conn.shutdown)

/-! ## One turn -/

variable {world : Dispatcher RpcMessage} {h : Coro} {r : ReadResult}

/-- Whatever happens to the requests, the loop takes the messages that `decodeLoop` takes. -/
theorem serveLoop_buffer {fuel : Nat} {s s' : Session} {req : RpcMessage}
    (hserve : serveLoop world fuel s req = some s') :
    s'.conn.inputBuffer = (decodeLoop fuel s.conn.inputBuffer req).2 := by
  induction fuel generalizing s req with
  | zero => rw [← Option.some.inj hserve, decodeLoop]
  | succ fuel ih =>
      unfold serveLoop at hserve
      unfold decodeLoop
      rcases hdecode : decode s.conn.inputBuffer req with ⟨ok, buf, msg⟩
      cases ok with
      | false =>
          rw [hdecode] at hserve
          rw [← Option.some.inj hserve]
      | true =>
          rw [hdecode] at hserve
          dsimp only at hserve ⊢
          split at hserve
          · split at hserve
            · exact absurd hserve (by simp)
            · rename_i conn hconn
              rw [ih hserve, world.keepsInput hconn]
          · exact ih hserve

/-- Served at once, no request is lost and the connection stays. -/
theorem serveLoop_calm {fuel : Nat} {s : Session} {req : RpcMessage}
    (hconn : s.conn.isConnected = true) :
    ∃ s', serveLoop (.calm _) fuel s req = some s' ∧ s'.conn.isConnected = true := by
  induction fuel generalizing s req with
  | zero => exact ⟨s, rfl, hconn⟩
  | succ fuel ih =>
      unfold serveLoop
      split
      · exact ⟨_, rfl, hconn⟩
      · dsimp only [Dispatcher.calm]
        split
        · exact ih hconn
        · exact ih hconn

/-- What is left after one pass over the messages: nothing exactly when the bytes were whole frames. -/
theorem decodeAll_rest {buf : Buffer} (hinv : buf.Inv) :
    (decodeAll buf).2.Inv ∧ readFrame (decodeAll buf).2.readable = none
      ∧ ((decodeAll buf).2.readable = []
        ↔ ∃ msgs : List RpcMessage, (∀ msg ∈ msgs, Encodable msg)
            ∧ buf.readable = msgs.flatMap frame) := by
  obtain ⟨hinv', hall⟩ := RpcCodec.decodeAll_run hinv []
  obtain ⟨msgs, rest, hrun, hmsgs, hbytes, hrest⟩ := Framing.run_frames (F := framing) [] buf.readable
  obtain ⟨-, hunread⟩ := Prod.mk.inj (hall.symm.trans hrun)
  rw [hunread]
  refine ⟨hinv', hrest, ?_, ?_⟩
  · intro hnil
    refine ⟨msgs, hmsgs, ?_⟩
    rw [hbytes, hnil, List.append_nil]
    rfl
  · rintro ⟨whole, hwhole, heq⟩
    have hempty := Framing.run_flatMap (F := framing) hwhole []
    rw [show whole.flatMap framing.frame = buf.readable from heq.symm, hrun] at hempty
    exact (Prod.mk.inj hempty).2

theorem turn_again {s s' : Session} (hinv : s.conn.inputBuffer.Inv)
    (hagain : turn world h r s = .again s') :
    s.conn.inputBuffer.readable ≠ [] ∧ s'.conn.inputBuffer = (decodeAll s.conn.inputBuffer).2 := by
  unfold turn at hagain
  split at hagain
  · rw [awaitRead_eq hinv] at hagain
    by_cases hnil : s.conn.inputBuffer.readable = []
    · rw [if_pos hnil] at hagain
      exact absurd hagain (by simp)
    · rw [if_neg hnil] at hagain
      dsimp only at hagain
      split at hagain
      · exact absurd hagain (by simp)
      · rename_i s₁ hserve
        rw [← Turn.again.inj hagain]
        exact ⟨hnil, serveLoop_buffer hserve⟩
  · exact absurd hagain (by simp)

theorem turn_calm {s : Session} (hconn : s.conn.isConnected = true) (hinv : s.conn.inputBuffer.Inv)
    (hne : s.conn.inputBuffer.readable ≠ []) :
    ∃ s', turn (.calm _) h r s = .again s' ∧ s'.conn.isConnected = true := by
  obtain ⟨s', hserve, hconn'⟩ := @serveLoop_calm (s.conn.inputBuffer.readableBytes + 1) s {} hconn
  refine ⟨s', ?_, hconn'⟩
  rw [turn, if_pos hconn, awaitRead_eq hinv, if_neg hne]
  simp only [hserve]

/-! ## When the loop settles -/

theorem settles_of_drained {s : Session} (hinv : s.conn.inputBuffer.Inv)
    (hnil : s.conn.inputBuffer.readable = []) : Turn.Settles (turn world h r) s := by
  cases hturn : turn world h r s with
  | stop st => exact Turn.settles_of_stop hturn
  | again s' => exact absurd hnil (turn_again hinv hturn).1

/-- With bytes that are no frame at the front, the loop spins. -/
theorem not_settles_of_stuck {s : Session} (hconn : s.conn.isConnected = true)
    (hinv : s.conn.inputBuffer.Inv) (hstuck : readFrame s.conn.inputBuffer.readable = none)
    (hne : s.conn.inputBuffer.readable ≠ []) : ¬ Turn.Settles (turn (.calm _) h r) s := by
  let Spins : Session → Prop := fun s => s.conn.isConnected = true ∧ s.conn.inputBuffer.Inv
    ∧ readFrame s.conn.inputBuffer.readable = none ∧ s.conn.inputBuffer.readable ≠ []
  have hstep : ∀ s, Spins s → ∃ s', turn (.calm _) h r s = .again s' ∧ Spins s' := by
    rintro s ⟨hconn, hinv, hstuck, hne⟩
    obtain ⟨s', hturn, hconn'⟩ := turn_calm (h := h) (r := r) hconn hinv hne
    have hsame : decodeAll s.conn.inputBuffer = ([], s.conn.inputBuffer) := by
      have hdecode := RpcCodec.decode_readFrame hinv {}
      rw [hstuck] at hdecode
      simp only [decodeAll, decodeLoop, hdecode]
    have hbuf := (turn_again hinv hturn).2
    rw [hsame] at hbuf
    exact ⟨s', hturn, hconn', by rw [hbuf]; exact hinv, by rw [hbuf]; exact hstuck,
      by rw [hbuf]; exact hne⟩
  exact Turn.not_settles hstep ⟨hconn, hinv, hstuck, hne⟩

/-- **The RPC loop settles, whatever happens around it, exactly when the received bytes are whole
frames** (or the connection is gone). -/
theorem settles_iff {s : Session} (hinv : s.conn.inputBuffer.Inv) :
    (∀ world, Turn.Settles (turn world h r) s)
      ↔ (s.conn.isConnected = true → ∃ msgs : List RpcMessage, (∀ msg ∈ msgs, Encodable msg)
          ∧ s.conn.inputBuffer.readable = msgs.flatMap frame) := by
  obtain ⟨hinv', hstuck, hwhole⟩ := decodeAll_rest hinv
  constructor
  · intro hsettles hconn
    by_contra hframes
    have hrest : (decodeAll s.conn.inputBuffer).2.readable ≠ [] := mt hwhole.mp hframes
    have hne : s.conn.inputBuffer.readable ≠ [] := by
      intro hnil
      exact hframes ⟨[], by simp, hnil⟩
    -- one turn handles the whole frames; what is left never becomes one
    obtain ⟨s', hturn, hconn'⟩ := turn_calm (h := h) (r := r) hconn hinv hne
    have hbuf := (turn_again hinv hturn).2
    have hspin : ¬ Turn.Settles (turn (.calm _) h r) s' :=
      not_settles_of_stuck hconn' (by rw [hbuf]; exact hinv') (by rw [hbuf]; exact hstuck)
        (by rw [hbuf]; exact hrest)
    exact hspin ((Turn.settles_iff_of_again hturn).mp (hsettles (.calm _)))
  · intro hframes world
    cases hturn : turn world h r s with
    | stop st => exact Turn.settles_of_stop hturn
    | again s' =>
        obtain ⟨-, hbuf⟩ := turn_again hinv hturn
        apply Turn.settles_of_again hturn
        apply settles_of_drained (by rw [hbuf]; exact hinv')
        rw [hbuf, hwhole]
        by_cases hconn : s.conn.isConnected = true
        · exact hframes hconn
        · rw [turn, if_neg hconn] at hturn
          exact absurd hturn (by simp)

end LightNet.Rpc.RpcServer
