/-
# LightNet.Coro.Served — a connection that a coroutine serves.

Between two steps of the coroutine anything may happen to its connection, in any order: an `OtherAct`.
Two things do not.  The server establishes the connection once, before it spawns the coroutine; and
the received bytes are the coroutine's, nobody else takes them out of the buffer.
-/
import LightNet.Net.Delivered

namespace LightNet.Coro

open LightNet.Foundation LightNet.Core LightNet.Net

/-- An act that is not the coroutine's own. -/
def OtherAct : Type := { a : Act // a ≠ .connectEstablished ∧ ∀ n, a ≠ .retrieve n }

/-- Bytes that `handle_read` delivers. -/
def bytesArrive (bytes : Bytes) : OtherAct := ⟨.handleRead ⟨some bytes, 0⟩ .done, nofun, nofun⟩

/-- The connection with its input buffer as the coroutine leaves it. -/
def takeInput (life : Life) (buf : Buffer) : Life :=
  { life with conn := { life.conn with inputBuffer := buf } }

/-- `co_await AsyncWrite{conn, out}` by the coroutine `h`, up to the suspension. -/
def asyncWrite (life : Life) (h : Coro) (out : Bytes) (r : WriteResult) (onComplete : Script) : Life :=
  (life.act (.send out r onComplete)).act (.awaitOutput h)

theorem asyncWrite_inputBuffer (life : Life) (h : Coro) (out : Bytes) (r : WriteResult)
    (onComplete : Script) :
    (asyncWrite life h out r onComplete).conn.inputBuffer = life.conn.inputBuffer := by
  rw [asyncWrite, Life.act_inputBuffer]
  show (life.act (.send out r onComplete)).conn.inputBuffer = _
  rw [Life.act_inputBuffer]
  rfl

theorem asyncWrite_not_connected {life : Life} (hne : life.conn.state ≠ .kConnected) (h : Coro)
    (out : Bytes) (r : WriteResult) (onComplete : Script) :
    (asyncWrite life h out r onComplete).conn.state ≠ .kConnected := by
  have hsend : (life.act (.send out r onComplete)).conn.state ≠ .kConnected :=
    Life.act_not_connected hne nofun
  exact Life.act_not_connected hsend nofun

/-- **One write of the coroutine** adds its bytes while the connection is connected. -/
theorem asyncWrite_delivers {life : Life} {sent : Bytes} (hlife : life.Delivers sent) (h : Coro)
    {out : Bytes} {r : WriteResult} {onComplete : Script} (hsilent : onComplete.Silent)
    (hfits : life.conn.state = .kConnected →
      life.conn.outputBuffer.Fits (life.conn.sendRest out r).length) :
    (asyncWrite life h out r onComplete).Delivers
      (if life.conn.state = .kConnected then sent ++ out else sent) :=
  (hlife.send hsilent hfits).act trivial nofun

theorem takeInput_delivers {life : Life} {sent : Bytes} (hlife : life.Delivers sent) (buf : Buffer) :
    (takeInput life buf).Delivers sent :=
  ⟨hlife.accounts.keeps ⟨rfl, rfl, le_refl _, fun _ => rfl⟩, hlife.queue, hlife.closed⟩

/-- A connection that the server has established, at the moment the coroutine starts. -/
def establishedLife : Life := Life.act {} .connectEstablished

/-! ## Bytes that arrive -/

/-- What a `read_fd` adds to the buffer. -/
def arrives (b : Buffer) : Option Bytes → Bytes
  | none => []
  | some bytes => b.delivered bytes

theorem readFd_arrives {b : Buffer} (h : b.Inv) {incoming : Option Bytes} (hf : b.ReadFits incoming) :
    (b.readFd incoming).2.Inv ∧ (b.readFd incoming).2.readable = b.readable ++ arrives b incoming := by
  cases incoming with
  | none => exact ⟨h, (List.append_nil _).symm⟩
  | some bytes => exact Buffer.readFd_some h hf

/-- The bytes that an act reads from the socket. -/
def incoming (life : Life) : Act → Bytes
  | .handleRead r _ => arrives life.conn.inputBuffer r.incoming
  | .readSome r =>
      if 0 < life.conn.inputBuffer.readableBytes then []
      else arrives life.conn.inputBuffer r.incoming
  | _ => []

/-- A read stays below the capacity cap. -/
def InputFits (life : Life) : Act → Prop
  | .handleRead r _ => life.conn.inputBuffer.ReadFits r.incoming
  | .readSome r =>
      life.conn.inputBuffer.readableBytes = 0 → life.conn.inputBuffer.ReadFits r.incoming
  | _ => True

instance (life : Life) : ∀ a, Decidable (InputFits life a)
  | .handleRead _ _ => inferInstanceAs (Decidable (Buffer.ReadFits _ _))
  | .readSome _ => inferInstanceAs (Decidable (_ → Buffer.ReadFits _ _))
  | .connectEstablished | .connectDestroyed | .handleClose | .handleError | .handleWrite _ _
  | .send _ _ _ | .retrieve _ | .shutdown | .forceClose | .awaitInput _ _ | .awaitOutput _ | .post _
  | .runClosure _ _ => isTrue trivial

/-- **Input is only appended to**, except by who retrieves it. -/
theorem act_readable {life : Life} (h : life.conn.inputBuffer.Inv) {a : Act}
    (ha : ∀ n, a ≠ .retrieve n) (hf : InputFits life a) :
    (life.act a).conn.inputBuffer.Inv
      ∧ (life.act a).conn.inputBuffer.readable
        = life.conn.inputBuffer.readable ++ incoming life a := by
  rw [Life.act_inputBuffer]
  cases a with
  | handleRead r onMessage => exact readFd_arrives h hf
  | readSome r =>
      simp only [Life.inputAfter, incoming]
      by_cases hpos : 0 < life.conn.inputBuffer.readableBytes
      · rw [if_pos hpos, if_pos hpos, List.append_nil]
        exact ⟨h, rfl⟩
      · rw [if_neg hpos, if_neg hpos]
        exact readFd_arrives h (hf (Nat.eq_zero_of_not_pos hpos))
  | retrieve n => exact absurd rfl (ha n)
  | connectEstablished | connectDestroyed | handleClose | handleError | handleWrite | send | shutdown
  | forceClose | awaitInput | awaitOutput | post | runClosure =>
      exact ⟨h, (List.append_nil _).symm⟩

/-- What a coroutine has left when it is done: nothing, or the exception in its promise. -/
inductive Done (ε : Type) where
  | returned
  | threw (e : ε)
  deriving DecidableEq

end LightNet.Coro
