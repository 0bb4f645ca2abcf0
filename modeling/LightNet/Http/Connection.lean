/-
# LightNet.Http.Connection — `HttpServer::handle_connection` among everything else.

The coroutine as a machine with a control point for each place where it can be found: at the head of
its loop, in `AsyncRead`, in the handler, in `AsyncWrite`, or done.  A `Move` is one step of the
coroutine up to the next such place, or an act of somebody else on the connection.  The coroutine is
resumed by whatever has its handle; the machine lets it go on at any time.

An exception out of `parse`, or out of the handler and through `dispatch`, ends the coroutine where it
is: the promise stores it, and the `shutdown` behind the loop is not reached.
-/
import LightNet.Coro.Served
import LightNet.Http.Parser

namespace LightNet.Http.HttpServer

open LightNet.Foundation LightNet.Core LightNet.Net LightNet.Coro

/-- An exception that can leave the loop. -/
inductive Exception where
  | parse (e : StdError)
  | handler (what : Nat)
  deriving DecidableEq

/-- Where the coroutine is. -/
inductive Control where
  | loop
  | reading
  | handling
  | writing
  | done (result : Done Exception)
  deriving DecidableEq

/-- The coroutine, with the connection it serves. -/
structure Serving where
  life : Life := establishedLife
  parser : HttpParser := .new
  control : Control := .loop

/-- What a step of the coroutine is answered: by the kernel for a read and a write, by the callback
of a complete write, and by the handler, which returns or throws. -/
structure Answers where
  read : ReadResult
  write : WriteResult
  onComplete : Script
  handler : Except Nat HttpResponse

/-- What happens next: the session goes on, or something else happens to its connection. -/
inductive Move where
  | other (a : OtherAct)
  | resume (ans : Answers)

/-- `route_key(method, path)`. -/
def routeKey (method path : Bytes) : Bytes := method ++ [32] ++ path

/-- The response to a path without a handler. -/
def notFound : HttpResponse :=
  let text : Bytes := ascii ['N', 'o', 't', ' ', 'F', 'o', 'u', 'n', 'd']
  let resp : HttpResponse := { statusCode := 404, statusMessage := text }
  let resp := resp.setContentType (ascii ['t', 'e', 'x', 't', '/', 'p', 'l', 'a', 'i', 'n'])
  resp.setBody (ascii ['4', '0', '4', ' '] ++ text)

/-- `dispatch(req)`, where `routes` are the keys of `routes_` and `handler` is what the task of the
handler found there comes to. -/
def dispatch (routes : List Bytes) (req : HttpRequest) (handler : Except Nat HttpResponse) :
    Except Nat HttpResponse :=
  if routes.contains (routeKey req.method req.path) then handler else .ok notFound

/-- One step of the coroutine `h`. -/
def resume (ord : IterOrder Bytes) (routes : List Bytes) (h : Coro) (s : Serving) (ans : Answers) :
    Serving :=
  match s.control with
  | .loop =>
      if s.life.conn.isConnected then
        { s with life := s.life.act (.awaitInput h 1), control := .reading }
      else { s with life := s.life.act .shutdown, control := .done .returned }
  | .reading =>
      let life := s.life.act (.readSome ans.read)
      let result := s.parser.parse ord life.conn.inputBuffer
      let s := { s with life := takeInput life result.buf, parser := result.parser }
      match result.thrown with
      | some e => { s with control := .done (.threw (.parse e)) }
      | none =>
          match result.parser.state with
          | .kComplete => { s with control := .handling }
          | .kError => { s with life := s.life.act .shutdown, control := .done .returned }
          | _ => { s with control := .loop }
  | .handling =>
      match dispatch routes s.parser.request ans.handler with
      | .error what => { s with control := .done (.threw (.handler what)) }
      | .ok resp =>
          { s with
            life := asyncWrite s.life h (resp.serialize ord) ans.write ans.onComplete
            control := .writing }
  | .writing =>
      if s.parser.keepAlive then { s with parser := s.parser.reset, control := .loop }
      else { s with life := s.life.act .shutdown, control := .done .returned }
  | .done _ => s

/-- What the move does. -/
def move (ord : IterOrder Bytes) (routes : List Bytes) (h : Coro) (s : Serving) : Move → Serving
  | .other a => { s with life := s.life.act a.val }
  | .resume ans => resume ord routes h s ans

/-! ## How it exits -/

/-- A coroutine that is done has left a connection that is not connected. -/
def ExitsShut (s : Serving) : Prop :=
  ∀ result, s.control = .done result → s.life.conn.state ≠ .kConnected

/-- The step ends in an exception. -/
def Throws (ord : IterOrder Bytes) (routes : List Bytes) (s : Serving) (ans : Answers) : Prop :=
  match s.control with
  | .reading =>
      (s.parser.parse ord (s.life.act (.readSome ans.read)).conn.inputBuffer).thrown ≠ none
  | .handling => ∃ what, dispatch routes s.parser.request ans.handler = .error what
  | _ => False

/-- No exception leaves `parse` or the handler while the connection is connected. -/
def ThrowsShut (ord : IterOrder Bytes) (routes : List Bytes) (s : Serving) : Move → Prop
  | .other _ => True
  | .resume ans => Throws ord routes s ans → s.life.conn.state ≠ .kConnected

variable {ord : IterOrder Bytes} {routes : List Bytes} {h : Coro}

theorem exitsShut_of_running {s : Serving} (hs : ∀ result, s.control ≠ .done result) : ExitsShut s :=
  fun result hresult => absurd hresult (hs result)

theorem exitsShut_shutdown (s : Serving) (control : Control) :
    ExitsShut { s with life := s.life.act .shutdown, control } :=
  fun _ _ => s.life.conn.shutdown_not_connected

/-- A step that ends in an exception leaves the connection as it is. -/
theorem resume_of_throws {s : Serving} {ans : Answers} (hthrows : Throws ord routes s ans) :
    (∃ result, (resume ord routes h s ans).control = .done result)
      ∧ (resume ord routes h s ans).life.conn.state = s.life.conn.state := by
  unfold Throws at hthrows
  unfold resume
  split at hthrows
  · rename_i hcontrol
    rw [hcontrol]
    dsimp only
    cases hthrown : (s.parser.parse ord (s.life.act (.readSome ans.read)).conn.inputBuffer).thrown with
    | none => exact absurd hthrown hthrows
    | some e =>
        refine ⟨⟨_, rfl⟩, ?_⟩
        show (s.life.conn.readSome ans.read).2.state = s.life.conn.state
        unfold TcpConnection.readSome
        split <;> rfl
  · rename_i hcontrol
    obtain ⟨what, herror⟩ := hthrows
    rw [hcontrol]
    dsimp only
    rw [herror]
    exact ⟨⟨_, rfl⟩, rfl⟩
  · exact hthrows.elim

/-- Every other step that ends the coroutine shuts the connection down. -/
theorem resume_exitsShut {s : Serving} {ans : Answers} (hs : ExitsShut s)
    (hthrows : ¬ Throws ord routes s ans) : ExitsShut (resume ord routes h s ans) := by
  unfold Throws at hthrows
  unfold resume
  cases hcontrol : s.control with
  | loop =>
      show ExitsShut (if s.life.conn.isConnected then _ else _)
      split
      · exact exitsShut_of_running nofun
      · exact exitsShut_shutdown s _
  | reading =>
      rw [hcontrol] at hthrows
      have hthrown : (s.parser.parse ord (s.life.act (.readSome ans.read)).conn.inputBuffer).thrown
          = none := not_not.mp hthrows
      dsimp only
      rw [hthrown]
      dsimp only
      split
      · exact exitsShut_of_running nofun
      · exact fun _ _ => TcpConnection.shutdown_not_connected _
      · exact exitsShut_of_running nofun
  | handling =>
      rw [hcontrol] at hthrows
      dsimp only
      cases hdispatch : dispatch routes s.parser.request ans.handler with
      | error what => exact absurd ⟨what, hdispatch⟩ hthrows
      | ok resp => exact exitsShut_of_running nofun
  | writing =>
      show ExitsShut (if s.parser.keepAlive then _ else _)
      split
      · exact exitsShut_of_running nofun
      · exact exitsShut_shutdown s _
  | done r => exact fun _ _ => hs r hcontrol

/-! ## The contract -/

/-- **One move.** -/
theorem move_exitsShut_iff {s : Serving} (hs : ExitsShut s) (m : Move) :
    ExitsShut (move ord routes h s m) ↔ ThrowsShut ord routes s m := by
  cases m with
  | other a =>
      refine iff_of_true ?_ trivial
      intro result hresult
      exact Life.act_not_connected (hs result hresult) a.property.1
  | resume ans =>
      by_cases hthrows : Throws ord routes s ans
      · obtain ⟨⟨result, hdone⟩, hstate⟩ := @resume_of_throws ord routes h s ans hthrows
        constructor
        · intro hexits _
          rw [← hstate]
          exact hexits result hdone
        · intro hok _ _
          show (resume ord routes h s ans).life.conn.state ≠ _
          rw [hstate]
          exact hok hthrows
      · exact iff_of_true (resume_exitsShut hs hthrows) fun ht => absurd ht hthrows

/-- **When every exit shuts the connection down.** -/
theorem exitsShut_iff (ord : IterOrder Bytes) (routes : List Bytes) (h : Coro) (moves : List Move) :
    (∀ n, ExitsShut (run (move ord routes h) {} (moves.take n)))
      ↔ Admissible (move ord routes h) (ThrowsShut ord routes) {} moves := by
  have hstart : ExitsShut {} := fun result hresult => absurd hresult (by simp)
  have hiff : ∀ s m, ExitsShut s → (ExitsShut (move ord routes h s m) ↔ ThrowsShut ord routes s m) :=
    fun _ m hs => move_exitsShut_iff hs m
  exact forall_take_iff_admissible (fun _ hs => hs) hiff (fun s m hs => (hiff s m hs).mpr) hstart

end LightNet.Http.HttpServer
