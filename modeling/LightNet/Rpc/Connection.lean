/-
# LightNet.Rpc.Connection — `RpcServer::handle_connection` among everything else.

The coroutine as a machine with a control point for each place where it can be found: at the head of
its loop, in `AsyncRead`, at the head of the inner loop over `decode`, in the handler, in
`AsyncWrite`, or done.  A `Move` is one step of the coroutine up to the next such place, or an act of
somebody else on the connection; in particular bytes may arrive while a request is away.

`received` collects what the socket has delivered and `written` what the coroutine has given to
`send` on a connected connection; no step looks at either.
-/
import LightNet.Coro.Served
import LightNet.Rpc.Framing

namespace LightNet.Rpc.RpcServer

open LightNet.Foundation LightNet.Core LightNet.Net LightNet.Coro
open RpcCodec (Encodable decode encode encodedSize frame framing readFrame stream)

/-- Where the coroutine is. -/
inductive Control where
  | loop
  | reading
  | decoding
  | handling
  | writing
  | done (result : Done Nat)
  deriving DecidableEq

/-- The coroutine, with the connection it serves and the message it reads into. -/
structure Serving where
  life : Life := establishedLife
  req : RpcMessage := {}
  control : Control := .loop
  received : Bytes := []
  written : List Bytes := []

/-- What a step of the coroutine is answered: by the kernel for a read and a write, by the callback
of a complete write, and by the handler, which returns or throws. -/
structure Answers where
  read : ReadResult
  write : WriteResult
  onComplete : Script
  handler : Except Nat Bytes

/-- What happens next: the session goes on, or something else happens to its connection. -/
inductive Move where
  | other (a : OtherAct)
  | resume (ans : Answers)

/-- `"error: unknown method"`. -/
def kUnknownMethod : Bytes :=
  ascii ['e', 'r', 'r', 'o', 'r', ':', ' ', 'u', 'n', 'k', 'n', 'o', 'w', 'n', ' ', 'm', 'e', 't',
    'h', 'o', 'd']

/-- `dispatch(req)`, where `methods` are the keys of `handlers_` and `handler` is what the task of the
handler found there comes to. -/
def dispatch (methods : List Bytes) (req : RpcMessage) (handler : Except Nat Bytes) :
    Except Nat Bytes :=
  if methods.contains req.method then handler else .ok kUnknownMethod

/-- The response to a request with this result. -/
def responseTo (req : RpcMessage) (result : Bytes) : RpcMessage where
  type := .kResponse
  requestId := req.requestId
  method := req.method
  payload := result

/-- `std::string out(encoded.peek(), encoded.readable_bytes())`. -/
def encoded (resp : RpcMessage) : Bytes := (encode resp).peek (encode resp).readableBytes

/-- One step of the coroutine `h`. -/
def resume (methods : List Bytes) (h : Coro) (s : Serving) (ans : Answers) : Serving :=
  match s.control with
  | .loop =>
      if s.life.conn.isConnected then
        { s with life := s.life.act (.awaitInput h 1), control := .reading }
      else { s with life := s.life.act .shutdown, control := .done .returned }
  | .reading =>
      { s with
        life := s.life.act (.readSome ans.read)
        received := s.received ++ incoming s.life (.readSome ans.read)
        req := {}
        control := .decoding }
  | .decoding =>
      match decode s.life.conn.inputBuffer s.req with
      | (false, buf, req) => { s with life := takeInput s.life buf, req, control := .loop }
      | (true, buf, req) =>
          { s with
            life := takeInput s.life buf
            req
            control := if req.type = .kRequest then .handling else .decoding }
  | .handling =>
      match dispatch methods s.req ans.handler with
      | .error what => { s with control := .done (.threw what) }
      | .ok result =>
          let out := encoded (responseTo s.req result)
          { s with
            life := asyncWrite s.life h out ans.write ans.onComplete
            written := if s.life.conn.state = .kConnected then s.written ++ [out] else s.written
            control := .writing }
  | .writing => { s with control := .decoding }
  | .done _ => s

/-- What the move does. -/
def move (methods : List Bytes) (h : Coro) (s : Serving) : Move → Serving
  | .other a =>
      { s with life := s.life.act a.val, received := s.received ++ incoming s.life a.val }
  | .resume ans => resume methods h s ans

/-! ## How it exits -/

/-- A coroutine that is done has left a connection that is not connected. -/
def ExitsShut (s : Serving) : Prop :=
  ∀ result, s.control = .done result → s.life.conn.state ≠ .kConnected

/-- No exception leaves the handler while the connection is connected. -/
def ThrowsShut (methods : List Bytes) (s : Serving) : Move → Prop
  | .other _ => True
  | .resume ans =>
      s.control = .handling → (∃ what, dispatch methods s.req ans.handler = .error what) →
        s.life.conn.state ≠ .kConnected

variable {methods : List Bytes} {h : Coro}

theorem exitsShut_of_running {s : Serving} (hs : ∀ result, s.control ≠ .done result) : ExitsShut s :=
  fun result hresult => absurd hresult (hs result)

/-- **One step of the coroutine** ends it in a shutdown, or in the exception of a handler. -/
theorem resume_exitsShut_iff {s : Serving} (hs : ExitsShut s) (ans : Answers) :
    ExitsShut (resume methods h s ans) ↔ ThrowsShut methods s (.resume ans) := by
  unfold resume ThrowsShut
  cases hcontrol : s.control with
  | loop =>
      refine iff_of_true ?_ nofun
      show ExitsShut (if s.life.conn.isConnected then _ else _)
      split
      · exact exitsShut_of_running nofun
      · exact fun _ _ => s.life.conn.shutdown_not_connected
  | reading => exact iff_of_true (exitsShut_of_running nofun) nofun
  | decoding =>
      refine iff_of_true ?_ nofun
      dsimp only
      split
      · exact exitsShut_of_running nofun
      · rename_i buf req hdecode
        apply exitsShut_of_running
        intro result
        show (if req.type = .kRequest then Control.handling else .decoding) ≠ .done result
        split
        · exact nofun
        · exact nofun
  | handling =>
      dsimp only
      cases hdispatch : dispatch methods s.req ans.handler with
      | error what =>
          constructor
          · intro hexits _ _
            exact hexits _ rfl
          · intro hok _ _
            exact hok rfl ⟨what, rfl⟩
      | ok result => exact iff_of_true (exitsShut_of_running nofun) nofun
  | writing => exact iff_of_true (exitsShut_of_running nofun) nofun
  | done r => exact iff_of_true (fun _ _ => hs r hcontrol) nofun

theorem move_exitsShut_iff {s : Serving} (hs : ExitsShut s) (m : Move) :
    ExitsShut (move methods h s m) ↔ ThrowsShut methods s m := by
  cases m with
  | other a =>
      refine iff_of_true ?_ trivial
      intro result hresult
      exact Life.act_not_connected (hs result hresult) a.property.1
  | resume ans => exact resume_exitsShut_iff hs ans

/-- **When every exit shuts the connection down.** -/
theorem exitsShut_iff (methods : List Bytes) (h : Coro) (moves : List Move) :
    (∀ n, ExitsShut (run (move methods h) {} (moves.take n)))
      ↔ Admissible (move methods h) (ThrowsShut methods) {} moves := by
  have hstart : ExitsShut {} := fun result hresult => absurd hresult (by simp)
  have hiff : ∀ s m, ExitsShut s → (ExitsShut (move methods h s m) ↔ ThrowsShut methods s m) :=
    fun _ m hs => move_exitsShut_iff hs m
  exact forall_take_iff_admissible (fun _ hs => hs) hiff (fun s m hs => (hiff s m hs).mpr) hstart

end LightNet.Rpc.RpcServer
