/-
# LightNet.Coro.Handler — what a connection coroutine is surrounded by.

The coroutines `HttpServer::handle_connection` and `RpcServer::handle_connection` loop over
`co_await AsyncRead{conn, 1}`, and between two reads hand requests to user code and write responses.
A `Dispatcher` stands for everything that happens while a request is away: the handler runs, the
response is written and its write awaited, the connection may be closed.  It answers with the
connection at the moment the coroutine goes on, or not at all (the handler throws, or never resumes).
No bytes arrive meanwhile: the received bytes are those that are there when the loop is looked at.
-/
import LightNet.Foundation.Loop
import LightNet.Net.TcpConnection

namespace LightNet.Coro

open LightNet.Foundation LightNet.Core LightNet.Net

/-- The part of the world that serves requests of type `ρ`; the number counts them. -/
structure Dispatcher (ρ : Type) where
  serve : Nat → ρ → TcpConnection → Option TcpConnection
  keepsInput : ∀ {k req c c'}, serve k req c = some c' → c'.inputBuffer = c.inputBuffer

/-- Every request is served at once, and the connection stays as it is. -/
def Dispatcher.calm (ρ : Type) : Dispatcher ρ where
  serve := fun _ _ c => some c
  keepsInput := fun h => by rw [← Option.some.inj h]

/-- How a coroutine leaves its loop: it is suspended in `AsyncRead`, has left the loop in the regular
way and called `shutdown`, has thrown, or waits for a request that is away. -/
inductive Stop where
  | suspended (c : TcpConnection)
  | finished (c : TcpConnection)
  | thrown (c : TcpConnection)
  | away (c : TcpConnection)

/-- `co_await AsyncRead{conn, 1}` by the coroutine `h`: `none` when it suspends.  With bytes in the
buffer `read_some` reads nothing, so the kernel's answer does not matter. -/
def awaitRead (c : TcpConnection) (r : ReadResult) : Option TcpConnection :=
  if c.asyncReadReady 1 then some (c.readSome r).2 else none

theorem awaitRead_eq {c : TcpConnection} (hinv : c.inputBuffer.Inv) (r : ReadResult) :
    awaitRead c r = if c.inputBuffer.readable = [] then none else some c := by
  have hlen := hinv.readableBytes_eq_length
  by_cases hnil : c.inputBuffer.readable = []
  · have hready : c.asyncReadReady 1 = false := by
      simp [TcpConnection.asyncReadReady, hlen, hnil]
    simp [awaitRead, hready, hnil]
  · have hpos : 0 < c.inputBuffer.readableBytes := by
      rw [hlen]
      exact List.length_pos_iff.mpr hnil
    have hready : c.asyncReadReady 1 = true := decide_eq_true hpos
    have hread : (c.readSome r).2 = c := by rw [TcpConnection.readSome, if_pos hpos]
    rw [awaitRead, hready, hread, if_neg hnil]
    rfl

end LightNet.Coro
