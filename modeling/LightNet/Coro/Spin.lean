/-
# LightNet.Coro.Spin — when the connection coroutines spin.

Both servers await a read and then parse what is there.  The two results side by side say on which
received bytes the awaits of a coroutine really suspend it.
-/
import LightNet.Http.Pipeline
import LightNet.Http.Server
import LightNet.Rpc.Framing
import LightNet.Rpc.Server

namespace LightNet.Coro

open LightNet.Foundation LightNet.Core LightNet.Net LightNet.Http LightNet.Rpc

/-- **The connection handlers settle exactly on bytes that leave nothing half received.** Whatever
happens to the requests, the HTTP loop leaves or suspends after finitely many turns if and only if
the received bytes do not end inside a line or a body, and the RPC loop if and only if they are
whole frames. -/
theorem handlers_settle_iff (ord : IterOrder Bytes) (h : Coro) (r : ReadResult)
    (http : HttpServer.Session) (rpc : RpcServer.Session)
    (hhttp : http.conn.inputBuffer.Inv) (hrpc : rpc.conn.inputBuffer.Inv)
    (hhttpConn : http.conn.isConnected = true) (hrpcConn : rpc.conn.isConnected = true) :
    ((∀ world, Turn.Settles (HttpServer.turn ord world h r) http)
        ↔ ¬ HttpServer.EndsInside ord http.parser http.conn.inputBuffer.readable)
      ∧ ((∀ world, Turn.Settles (RpcServer.turn world h r) rpc)
        ↔ ∃ msgs : List RpcMessage, (∀ msg ∈ msgs, RpcCodec.Encodable msg)
            ∧ rpc.conn.inputBuffer.readable = msgs.flatMap RpcCodec.frame) := by
  refine ⟨(HttpServer.settles_iff hhttp).trans ?_, (RpcServer.settles_iff hrpc).trans ?_⟩
  · exact ⟨fun himp => himp hhttpConn, fun hends _ => hends⟩
  · exact ⟨fun himp => himp hrpcConn, fun hframes _ => hframes⟩

/-- A connection that has just been established and has received these bytes. -/
def received (xs : Bytes) : TcpConnection :=
  { TcpConnection.connectEstablished {} with inputBuffer := Buffer.new.append xs }

theorem received_isConnected (xs : Bytes) : (received xs).isConnected = true := rfl

theorem received_readable (xs : Bytes) (h : Buffer.kCheapPrepend + xs.length ≤ Buffer.kMaxCapacity) :
    (received xs).inputBuffer.Inv ∧ (received xs).inputBuffer.readable = xs := by
  have hfits : Buffer.new.Fits xs.length := Buffer.Fits.of_le h
  refine ⟨Buffer.append_inv Buffer.new_inv hfits, ?_⟩
  show (Buffer.new.append xs).readable = xs
  rw [Buffer.append_readable Buffer.new_inv hfits, Buffer.new_readable, List.nil_append]

/-- An answer of the kernel that is never asked for. -/
def noRead : ReadResult := ⟨none, EAGAIN⟩

/-- Whole requests do not end inside a line or a body. -/
theorem not_endsInside_render (ord : IterOrder Bytes) (reqs : List WireRequest) :
    ¬ HttpServer.EndsInside ord .new (reqs.flatMap WireRequest.render) := by
  induction reqs with
  | nil => exact fun hends => hends.ne_nil rfl
  | cons r reqs ih =>
      obtain ⟨q, hrun, hcomplete, -⟩ := HttpParser.run_render ord r (reqs.flatMap WireRequest.render)
      rw [List.flatMap_cons]
      intro hends
      cases hends with
      | inside hrun' hinside hys =>
          -- a parser that has completed a request waits for nothing
          obtain ⟨hq, -⟩ := Prod.mk.inj (hrun.symm.trans hrun')
          rw [← (Prod.mk.inj hq).1] at hinside
          exact hinside.waiting.not_done.1 hcomplete
      | next hrun' hcomplete' hkeep hrest =>
          rw [← (Prod.mk.inj (hrun.symm.trans hrun')).2] at hrest
          exact ih hrest

/-- Two requests, the second with a body that is a line end, and two frames: both loops settle. -/
theorem handlers_settle_iff_sample :
    (∀ world, Turn.Settles (HttpServer.turn (.entries _) world 0 noRead)
        ⟨.new, received ([HttpParser.getRoot, HttpParser.postLine].flatMap WireRequest.render), 0⟩)
      ∧ (∀ world, Turn.Settles (RpcServer.turn world 0 noRead)
        ⟨received (RpcCodec.twoMessages.flatMap RpcCodec.frame), 0⟩) := by
  obtain ⟨hhttp, hhttpRead⟩ := received_readable
    ([HttpParser.getRoot, HttpParser.postLine].flatMap WireRequest.render) (by decide +kernel)
  obtain ⟨hrpc, hrpcRead⟩ := received_readable
    (RpcCodec.twoMessages.flatMap RpcCodec.frame) (by decide +kernel)
  obtain ⟨hhttpSettles, hrpcSettles⟩ := handlers_settle_iff (.entries _) 0 noRead
    ⟨.new, received ([HttpParser.getRoot, HttpParser.postLine].flatMap WireRequest.render), 0⟩
    ⟨received (RpcCodec.twoMessages.flatMap RpcCodec.frame), 0⟩ hhttp hrpc (received_isConnected _)
    (received_isConnected _)
  constructor
  · apply hhttpSettles.mpr
    rw [hhttpRead]
    exact not_endsInside_render _ _
  · refine hrpcSettles.mpr ⟨RpcCodec.twoMessages, ?_, hrpcRead⟩
    intro msg hmsg
    simp only [RpcCodec.twoMessages, List.mem_cons, List.not_mem_nil, or_false] at hmsg
    rcases hmsg with rfl | rfl <;> exact ⟨by decide, by decide⟩

/-- A part of a request line, and a single byte of a frame: both loops spin. -/
theorem partial_input_spins :
    ¬ (∀ world, Turn.Settles (HttpServer.turn (.entries _) world 0 noRead)
        ⟨.new, received [71, 69, 84], 0⟩)
      ∧ ¬ (∀ world, Turn.Settles (RpcServer.turn world 0 noRead) ⟨received [80], 0⟩) := by
  constructor
  · obtain ⟨hinv, hread⟩ := received_readable [71, 69, 84] (by decide)
    have hinside : HttpServer.Inside .new (received [71, 69, 84]).inputBuffer.readable := by
      rw [hread]
      exact .inl ⟨.inl rfl, by decide⟩
    have hspin : ¬ Turn.Settles (HttpServer.turn (.entries _) (.calm _) 0 noRead)
        ⟨.new, received [71, 69, 84], 0⟩ :=
      HttpServer.not_settles_of_inside (received_isConnected _) hinv hinside (by rw [hread]; decide)
    exact fun h => hspin (h (.calm _))
  · obtain ⟨hinv, hread⟩ := received_readable [80] (by decide)
    have hspin : ¬ Turn.Settles (RpcServer.turn (.calm _) 0 noRead) ⟨received [80], 0⟩ :=
      RpcServer.not_settles_of_stuck (received_isConnected _) hinv (by rw [hread]; rfl)
        (by rw [hread]; decide)
    exact fun h => hspin (h (.calm _))

end LightNet.Coro
