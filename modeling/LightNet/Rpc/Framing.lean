/-
# LightNet.Rpc.Framing — RPC messages survive any fragmentation.

`decodeAll` is the `while (decode(...))` of `RpcServer::handle_connection` and `deliver` the arrival
of one chunk: append it, then decode until `false`.  `decodeAll_run` shows that this is the run of
the framing's consumer on the unread bytes, so the chunks are collected as the whole stream would be
and each message comes out with the chunk that brings its last byte.
-/
import LightNet.Foundation.Run
import LightNet.Rpc.Codec

namespace LightNet.Rpc.RpcCodec

open LightNet.Foundation LightNet.Core

/-- `while (decode(buf, &req))`: the messages taken, in order, and the buffer left.  A successful
`decode` retrieves at least a header, so `readable_bytes()` turns are enough. -/
def decodeLoop : Nat → Buffer → RpcMessage → List RpcMessage × Buffer
  | 0, buf, _ => ([], buf)
  | fuel + 1, buf, req =>
      match decode buf req with
      | (false, buf, _) => ([], buf)
      | (true, buf, req) =>
          let rest := decodeLoop fuel buf req
          (req :: rest.1, rest.2)

/-- `while (decode(&buf, &msg))`, with the messages it gives. -/
def decodeAll (buf : Buffer) : List RpcMessage × Buffer :=
  decodeLoop (buf.readableBytes + 1) buf {}

/-- A connection's buffer and the messages decoded so far. -/
abbrev Received := Buffer × List RpcMessage

/-- One chunk arrives. -/
def deliver (s : Received) (chunk : Bytes) : Received :=
  let r := decodeAll (s.1.append chunk)
  (r.2, s.2 ++ r.1)

/-- The chunk stays below the capacity cap. -/
def ChunkFits (s : Received) (chunk : Bytes) : Prop := s.1.Fits chunk.length

instance (s : Received) (chunk : Bytes) : Decidable (ChunkFits s chunk) :=
  inferInstanceAs (Decidable (Buffer.Fits _ _))

/-! ## The loop is the consumer's run -/

theorem decodeLoop_run {fuel : Nat} {buf : Buffer} (hinv : buf.Inv) (req : RpcMessage)
    (hfuel : buf.readable.length < fuel) (out : List RpcMessage) :
    (decodeLoop fuel buf req).2.Inv
      ∧ framing.consumer.run out buf.readable
        = (out ++ (decodeLoop fuel buf req).1, (decodeLoop fuel buf req).2.readable) := by
  induction fuel generalizing buf req out with
  | zero => exact absurd hfuel (Nat.not_lt_zero _)
  | succ fuel ih =>
      have hdecode := decode_readFrame hinv req
      cases hread : readFrame buf.readable with
      | none =>
          rw [hread] at hdecode
          have hstuck : framing.consumer.step out buf.readable = none := by
            have : framing.read buf.readable = none := hread
            simp [Framing.consumer, Framing.collect, this]
          simp only [decodeLoop, hdecode, List.append_nil]
          exact ⟨hinv, Consumer.run_of_none hstuck⟩
      | some r =>
          obtain ⟨msg, rest⟩ := r
          rw [hread] at hdecode
          obtain ⟨henc, hframe⟩ := readFrame_eq_some.mp hread
          have hrest : (buf.retrieve (frame msg).length).readable = rest := by
            rw [Buffer.retrieve_readable hinv, hframe, List.drop_left]
          have hlen : rest.length < fuel := by
            have := framing.frame_pos msg
            have hfr : framing.frame msg = frame msg := rfl
            rw [hframe, List.length_append] at hfuel
            rw [hfr] at this
            omega
          obtain ⟨hinv', hrun⟩ := ih (Buffer.retrieve_inv hinv _) msg (by rw [hrest]; exact hlen)
            (out ++ [msg])
          simp only [decodeLoop, hdecode]
          refine ⟨hinv', ?_⟩
          rw [hframe, show frame msg = framing.frame msg from rfl, Framing.run_frame henc, ← hrest,
            hrun, List.append_assoc]
          rfl

theorem decodeAll_run {buf : Buffer} (hinv : buf.Inv) (out : List RpcMessage) :
    (decodeAll buf).2.Inv
      ∧ framing.consumer.run out buf.readable
        = (out ++ (decodeAll buf).1, (decodeAll buf).2.readable) := by
  apply decodeLoop_run hinv
  rw [hinv.readableBytes_eq_length]
  exact Nat.lt_succ_self _

/-- One chunk is fed to the consumer. -/
theorem deliver_feed {s : Received} (hinv : s.1.Inv) {chunk : Bytes} (hfits : ChunkFits s chunk) :
    (deliver s chunk).1.Inv
      ∧ ((deliver s chunk).2, (deliver s chunk).1.readable)
        = framing.consumer.feed (s.2, s.1.readable) chunk := by
  obtain ⟨hinv', hrun⟩ := decodeAll_run (Buffer.append_inv hinv hfits) s.2
  rw [Buffer.append_readable hinv hfits] at hrun
  exact ⟨hinv', hrun.symm⟩

/-- The chunks that have arrived, as one byte string. -/
theorem run_deliver {chunks : List Bytes} {s : Received} (hinv : s.1.Inv)
    (hcap : Admissible deliver ChunkFits s chunks) :
    (run deliver s chunks).1.Inv
      ∧ ((run deliver s chunks).2, (run deliver s chunks).1.readable)
        = chunks.foldl framing.consumer.feed (s.2, s.1.readable) := by
  induction chunks generalizing s with
  | nil => exact ⟨hinv, rfl⟩
  | cons chunk chunks ih =>
      obtain ⟨hinv', hfeed⟩ := deliver_feed hinv hcap.1
      obtain ⟨hinv'', hfold⟩ := ih hinv' hcap.2
      refine ⟨hinv'', ?_⟩
      rw [run_cons, hfold, hfeed, List.foldl_cons]

/-! ## Fragmentation -/

/-- The stream a sender writes: the readable bytes of the `encode` outputs, one after the other. -/
def stream (msgs : List RpcMessage) : Bytes := msgs.flatMap fun msg => (encode msg).readable

/-- The messages whose last byte is among the first `n` of the stream. -/
def arrived (msgs : List RpcMessage) (n : Nat) : List RpcMessage :=
  Framing.arrived (fun msg => (encode msg).readable.length) msgs n

theorem stream_eq {msgs : List RpcMessage}
    (hroom : ∀ msg ∈ msgs, Buffer.new.Fits (encodedSize msg)) : stream msgs = msgs.flatMap frame :=
  List.flatMap_congr fun msg hmsg => (encode_readable (hroom msg hmsg)).2

theorem arrived_eq {msgs : List RpcMessage}
    (hroom : ∀ msg ∈ msgs, Buffer.new.Fits (encodedSize msg)) (n : Nat) :
    arrived msgs n = Framing.arrived (fun msg => (frame msg).length) msgs n := by
  induction msgs generalizing n with
  | nil => rfl
  | cons msg msgs ih =>
      have hmsg := (encode_readable (hroom msg List.mem_cons_self)).2
      have htail := ih (fun m hm => hroom m (List.mem_cons_of_mem _ hm))
      simp only [arrived] at htail
      simp only [arrived, Framing.arrived, hmsg, htail]

/-- After some chunks, the messages that are complete in them. -/
theorem run_deliver_arrived {msgs : List RpcMessage} {chunks : List Bytes} {later : Bytes}
    (hmsgs : ∀ msg ∈ msgs, Encodable msg)
    (hroom : ∀ msg ∈ msgs, Buffer.new.Fits (encodedSize msg))
    (hcut : chunks.flatten ++ later = stream msgs)
    (hcap : Admissible deliver ChunkFits (Buffer.new, []) chunks) :
    (run deliver (Buffer.new, []) chunks).2 = arrived msgs chunks.flatten.length
      ∧ (arrived msgs chunks.flatten.length).flatMap frame
          ++ (run deliver (Buffer.new, []) chunks).1.readable = chunks.flatten := by
  have hstream := stream_eq hroom
  have hlen : chunks.flatten.length ≤ (msgs.flatMap framing.frame).length := by
    show _ ≤ (msgs.flatMap frame).length
    rw [← hstream, ← hcut, List.length_append]
    exact Nat.le_add_right _ _
  obtain ⟨rest, hrun, hrest⟩ := Framing.run_take (F := framing) hmsgs [] hlen
  have htake : (msgs.flatMap framing.frame).take chunks.flatten.length = chunks.flatten := by
    show (msgs.flatMap frame).take _ = _
    rw [← hstream, ← hcut, List.take_left]
  have hfed := (run_deliver (s := (Buffer.new, [])) Buffer.new_inv hcap).2
  rw [Buffer.new_readable, ← Framing.run_nil (F := framing) [], Consumer.feed_run, List.nil_append,
    ← htake, hrun, List.nil_append] at hfed
  obtain ⟨hout, hunread⟩ := Prod.mk.inj hfed
  rw [htake] at hrest
  have harrived := arrived_eq hroom chunks.flatten.length
  refine ⟨?_, ?_⟩
  · rw [hout, harrived]
    rfl
  · rw [hunread, harrived]
    exact hrest

/-- **RPC framing survives any fragmentation.** Cut the concatenated `encode` outputs into chunks in
any way: after each chunk exactly the messages that are complete by then have been decoded, in order
and each once, and after the last chunk these are all messages and no byte is unread. -/
theorem deliver_arrived {msgs : List RpcMessage} {chunks : List Bytes}
    (hmsgs : ∀ msg ∈ msgs, Encodable msg)
    (hroom : ∀ msg ∈ msgs, Buffer.new.Fits (encodedSize msg))
    (hcut : chunks.flatten = stream msgs)
    (hcap : Admissible deliver ChunkFits (Buffer.new, []) chunks) :
    (∀ k, (run deliver (Buffer.new, []) (chunks.take k)).2
        = arrived msgs (chunks.take k).flatten.length)
      ∧ (run deliver (Buffer.new, []) chunks).2 = msgs
      ∧ (run deliver (Buffer.new, []) chunks).1.readable = [] := by
  have hnothing : chunks.flatten ++ [] = stream msgs := by rw [List.append_nil, hcut]
  have hwhole := run_deliver_arrived hmsgs hroom hnothing hcap
  have hall : arrived msgs chunks.flatten.length = msgs := by
    apply Framing.arrived_all
    rw [hcut, stream, List.length_flatMap]
  rw [hall] at hwhole
  refine ⟨?_, hwhole.1, ?_⟩
  · -- what has not been delivered yet is the rest of the stream
    intro k
    rw [← List.take_append_drop k chunks] at hcut hcap
    rw [List.flatten_append] at hcut
    exact (run_deliver_arrived hmsgs hroom hcut (admissible_append.mp hcap).1).1
  · have hlen := congrArg List.length hwhole.2
    rw [hcut, stream_eq hroom, List.length_append] at hlen
    exact List.length_eq_zero_iff.mp (by omega)

/-- Two requests. -/
def twoMessages : List RpcMessage :=
  [{ requestId := 1, method := [97], payload := [1, 2] }, { requestId := 2, method := [98, 99] }]

/-- Two frames cut inside the first header and inside the second method. -/
theorem deliver_arrived_sample :
    (run deliver (Buffer.new, []) [(stream twoMessages).take 7, ((stream twoMessages).drop 7).take 33,
      (stream twoMessages).drop 40]).2 = twoMessages := by
  have hroom : ∀ msg ∈ twoMessages, Buffer.new.Fits (encodedSize msg) := by
    intro msg hmsg
    apply Buffer.Fits.of_le
    simp only [twoMessages, List.mem_cons, List.not_mem_nil, or_false] at hmsg
    rcases hmsg with rfl | rfl <;> decide
  have hmsgs : ∀ msg ∈ twoMessages, Encodable msg := by
    intro msg hmsg
    simp only [twoMessages, List.mem_cons, List.not_mem_nil, or_false] at hmsg
    rcases hmsg with rfl | rfl <;> exact ⟨by decide, by decide⟩
  exact (deliver_arrived hmsgs hroom (by decide +kernel) (by decide +kernel)).2.1

end LightNet.Rpc.RpcCodec
