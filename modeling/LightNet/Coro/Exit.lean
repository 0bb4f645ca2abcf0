/-
# LightNet.Coro.Exit — every exit of a connection coroutine and the connection it leaves.

Both coroutines end in `conn->shutdown()`, which stands behind the loop.  Every `break` reaches it, and
so does the test of the loop.  An exception does not: it leaves the frame for the `unhandled_exception`
of the promise, which stores it for an awaiter, and a spawned coroutine has none.
-/
import LightNet.Http.Connection
import LightNet.Rpc.Connection

namespace LightNet.Coro

open LightNet.Foundation LightNet.Core LightNet.Net LightNet.Http LightNet.Rpc

/-- **When every exit shuts the connection down.** Whatever arrives, in whatever pieces, and whatever
the handlers do: all along a run a coroutine that is done has left a connection that is not connected,
if and only if every exception of the run leaves `parse` or a handler when the connection is no longer
connected.  This holds of the HTTP and of the RPC coroutine. -/
theorem exits_shut_iff (ord : IterOrder Bytes) (routes methods : List Bytes) (h : Coro)
    (https : List HttpServer.Move) (rpcs : List RpcServer.Move) :
    ((∀ n, HttpServer.ExitsShut (run (HttpServer.move ord routes h) {} (https.take n)))
        ↔ Admissible (HttpServer.move ord routes h) (HttpServer.ThrowsShut ord routes) {} https)
      ∧ ((∀ n, RpcServer.ExitsShut (run (RpcServer.move methods h) {} (rpcs.take n)))
        ↔ Admissible (RpcServer.move methods h) (RpcServer.ThrowsShut methods) {} rpcs) :=
  ⟨HttpServer.exitsShut_iff ord routes h https, RpcServer.exitsShut_iff methods h rpcs⟩

/-- `GET / HTTP/1.1` with a `Content-Length` of `x`. -/
def badLength : Bytes :=
  ascii ['G', 'E', 'T', ' ', '/', ' ', 'H', 'T', 'T', 'P', '/', '1', '.', '1', '\r', '\n',
    'C', 'o', 'n', 't', 'e', 'n', 't', '-', 'L', 'e', 'n', 'g', 't', 'h', ':', ' ', 'x', '\r', '\n',
    '\r', '\n']

/-- `stoul` throws on a length that is no number; a handler throws on the request it is given. -/
theorem exit_connected :
    (¬ ∀ n, HttpServer.ExitsShut (run (HttpServer.move (.entries _) [] 7) {}
      (([.resume ⟨⟨none, 11⟩, ⟨0, 0⟩, .done, .ok {}⟩, .other (bytesArrive badLength),
        .resume ⟨⟨none, 11⟩, ⟨0, 0⟩, .done, .ok {}⟩] : List HttpServer.Move).take n)))
      ∧ ¬ ∀ n, RpcServer.ExitsShut (run (RpcServer.move [[97]] 7) {}
        (([.resume ⟨⟨none, 11⟩, ⟨0, 0⟩, .done, .ok []⟩,
          .other (bytesArrive (RpcServer.encoded { requestId := 1, method := [97] })),
          .resume ⟨⟨none, 11⟩, ⟨0, 0⟩, .done, .ok []⟩, .resume ⟨⟨none, 11⟩, ⟨0, 0⟩, .done, .ok []⟩,
          .resume ⟨⟨none, 11⟩, ⟨0, 0⟩, .done, .error 1⟩] : List RpcServer.Move).take n)) := by
  constructor
  · intro h
    exact h 3 (.threw (.parse .invalidArgument)) (by decide +kernel) (by decide +kernel)
  · intro h
    exact h 5 (.threw 1) (by decide +kernel) (by decide +kernel)

end LightNet.Coro
