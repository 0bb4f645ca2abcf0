/-
# LightNet.Rpc.Responses — RPC responses match requests one to one and in order.

The coroutine drains the very buffer that the loop goes on filling while a handler or a write is away,
and it decodes into one message variable.  The account that holds at every moment (`Serves`): the
messages served so far, the one in flight and the unread bytes make up the bytes received; and what
has been written are the responses to the requests among the messages served.

Frames off the front of a stream of frames are the frames of that stream, so on a stream of encoded
messages the account is about the requests of that stream (`responses_in_order`).
-/
import LightNet.Foundation.UnorderedMap
import LightNet.Core.BufferRun
import LightNet.Rpc.Connection

namespace LightNet.Rpc.RpcServer

open LightNet.Foundation LightNet.Core LightNet.Net LightNet.Coro
open RpcCodec (Encodable decode encode encodedSize encode_readable frame framing readFrame
  readFrame_eq_some stream)

/-- `handlers_`, each handler as the function from the payload to the result. -/
abbrev Handlers := UnorderedMap Bytes (Bytes → Bytes)

/-- What `dispatch(req)` comes to. -/
def result (handlers : Handlers) (req : RpcMessage) : Bytes :=
  match handlers.lookup req.method with
  | some handler => handler req.payload
  | none => kUnknownMethod

/-- The response to a request. -/
def response (handlers : Handlers) (req : RpcMessage) : RpcMessage :=
  responseTo req (result handlers req)

/-- The handler of a request returns its result. -/
def HandlersReturn (handlers : Handlers) (s : Serving) : Move → Prop
  | .other _ => True
  | .resume ans =>
      s.control = .handling → ∀ handler ∈ handlers.lookup s.req.method,
        ans.handler = .ok (handler s.req.payload)

/-- Neither the unread input nor an encoded response outgrows its buffer. -/
def FitsBuffers (handlers : Handlers) (s : Serving) : Move → Prop
  | .other a => InputFits s.life a.val
  | .resume ans =>
      (s.control = .reading → InputFits s.life (.readSome ans.read))
        ∧ (s.control = .handling → Buffer.new.Fits (encodedSize (response handlers s.req)))

instance (handlers : Handlers) (s : Serving) : ∀ m, Decidable (HandlersReturn handlers s m)
  | .other _ => isTrue trivial
  | .resume _ => inferInstanceAs (Decidable (_ → ∀ _ ∈ _, _))

instance (handlers : Handlers) (s : Serving) : ∀ m, Decidable (FitsBuffers handlers s m)
  | .other _ => inferInstanceAs (Decidable (InputFits _ _))
  | .resume _ => inferInstanceAs (Decidable (_ ∧ _))

/-! ## The account -/

/-- A message that is answered. -/
def IsRequest (msg : RpcMessage) : Prop := msg.type = .kRequest

instance : DecidablePred IsRequest := fun msg => inferInstanceAs (Decidable (msg.type = .kRequest))

/-- The request that has been decoded and not answered. -/
def inFlight (s : Serving) : List RpcMessage := if s.control = .handling then [s.req] else []

/-- The response frames to the requests among some messages. -/
def responseFrames (handlers : Handlers) (msgs : List RpcMessage) : List Bytes :=
  (msgs.filter IsRequest).map fun req => frame (response handlers req)

/-- The messages `served` are those that the coroutine is done with. -/
structure Serves (handlers : Handlers) (s : Serving) (served : List RpcMessage) : Prop where
  inputInv : s.life.conn.inputBuffer.Inv
  encodable : ∀ msg ∈ served ++ inFlight s, Encodable msg
  received : (served ++ inFlight s).flatMap frame ++ s.life.conn.inputBuffer.readable = s.received
  request : s.control = .handling → IsRequest s.req
  responses : ∀ req ∈ served, IsRequest req → Encodable (response handlers req)
  written_prefix : s.written <+: responseFrames handlers served
  written : s.life.conn.state = .kConnected → s.written = responseFrames handlers served

variable {handlers : Handlers} {h : Coro} {s : Serving} {served : List RpcMessage}

theorem inFlight_of_ne (h : s.control ≠ .handling) : inFlight s = [] := if_neg h

theorem inFlight_of_eq (h : s.control = .handling) : inFlight s = [s.req] := if_pos h

theorem responseFrames_of_request {msg : RpcMessage} (hmsg : IsRequest msg) (msgs : List RpcMessage) :
    responseFrames handlers (msgs ++ [msg])
      = responseFrames handlers msgs ++ [frame (response handlers msg)] := by
  rw [responseFrames, List.filter_append, List.filter_singleton, decide_eq_true hmsg, cond_true,
    List.map_append]
  rfl

theorem responseFrames_of_not_request {msg : RpcMessage} (hmsg : ¬ IsRequest msg)
    (msgs : List RpcMessage) :
    responseFrames handlers (msgs ++ [msg]) = responseFrames handlers msgs := by
  rw [responseFrames, List.filter_append, List.filter_singleton, decide_eq_false hmsg, cond_false,
    List.append_nil, responseFrames]

/-- With no request in flight, the bytes received are the messages served and the unread bytes. -/
theorem Serves.idle (hs : Serves handlers s served) (hidle : s.control ≠ .handling) :
    (∀ msg ∈ served, Encodable msg)
      ∧ served.flatMap frame ++ s.life.conn.inputBuffer.readable = s.received := by
  have hencodable := hs.encodable
  have hreceived := hs.received
  rw [inFlight_of_ne hidle, List.append_nil] at hencodable hreceived
  exact ⟨hencodable, hreceived⟩

theorem serves_of_idle (hidle : s.control ≠ .handling) (hinv : s.life.conn.inputBuffer.Inv)
    (hencodable : ∀ msg ∈ served, Encodable msg)
    (hreceived : served.flatMap frame ++ s.life.conn.inputBuffer.readable = s.received)
    (hresponses : ∀ req ∈ served, IsRequest req → Encodable (response handlers req))
    (hfront : s.written <+: responseFrames handlers served)
    (hwritten : s.life.conn.state = .kConnected → s.written = responseFrames handlers served) :
    Serves handlers s served where
  inputInv := hinv
  encodable := by
    rw [inFlight_of_ne hidle, List.append_nil]
    exact hencodable
  received := by
    rw [inFlight_of_ne hidle, List.append_nil]
    exact hreceived
  request := fun hcontrol => absurd hcontrol hidle
  responses := hresponses
  written_prefix := hfront
  written := hwritten

/-- The result of `dispatch` when the handlers return. -/
theorem dispatch_eq {req : RpcMessage} {ans : Except Nat Bytes}
    (hans : ∀ handler ∈ handlers.lookup req.method, ans = .ok (handler req.payload)) :
    dispatch handlers.keys req ans = .ok (result handlers req) := by
  unfold dispatch result
  cases hlookup : handlers.lookup req.method with
  | some handler =>
      have hmem : req.method ∈ handlers.keys :=
        AList.mem_keys.mp (UnorderedMap.mem_iff_lookup.mpr ⟨handler, hlookup⟩)
      rw [if_pos (List.contains_iff_mem.mpr hmem), hans handler hlookup]
  | none =>
      have hmem : req.method ∉ handlers.keys := fun hmem =>
        AList.lookup_eq_none.mp hlookup (AList.mem_keys.mpr hmem)
      rw [if_neg (mt List.contains_iff_mem.mp hmem)]

theorem encoded_eq {msg : RpcMessage} (hfits : Buffer.new.Fits (encodedSize msg)) :
    encoded msg = frame msg := by
  obtain ⟨hinv, hread⟩ := encode_readable hfits
  rw [encoded, hinv.peek_readableBytes, hread]

/-- A response that fits the buffer of `encode` has lengths that fit their fields. -/
theorem encodable_response {req : RpcMessage} (hreq : Encodable req)
    (hfits : Buffer.new.Fits (encodedSize (response handlers req))) :
    Encodable (response handlers req) where
  method_lt := hreq.method_lt
  payload_lt := by
    have hsize : (response handlers req).payload.length ≤ encodedSize (response handlers req) :=
      Nat.le_add_left _ _
    have hcap : Buffer.kMaxCapacity < 2 ^ 32 := by decide
    have hprepend : Buffer.kCheapPrepend < 2 ^ 32 := by decide
    have hnew : Buffer.new.size < 2 ^ 32 := by
      rw [Buffer.new_size]
      decide
    unfold Buffer.Fits at hfits
    have hindex : Buffer.new.readerIndex = Buffer.kCheapPrepend := rfl
    omega

/-! ## Every move keeps it -/

/-- **An act on the connection** that only reads keeps the account. -/
theorem Serves.act (hs : Serves handlers s served) {a : Act} {s' : Serving}
    (hestablish : a ≠ .connectEstablished) (hretrieve : ∀ n, a ≠ .retrieve n)
    (hfits : InputFits s.life a) (hlife : s'.life = s.life.act a)
    (hreceived : s'.received = s.received ++ incoming s.life a) (hflight : inFlight s' = inFlight s)
    (hrequest : s'.control = .handling → IsRequest s'.req) (hwritten : s'.written = s.written) :
    Serves handlers s' served := by
  obtain ⟨hinv, hread⟩ := act_readable hs.inputInv hretrieve hfits
  constructor
  · rw [hlife]
    exact hinv
  · rw [hflight]
    exact hs.encodable
  · rw [hflight, hlife, hread, hreceived, ← hs.received, List.append_assoc]
  · exact hrequest
  · exact hs.responses
  · rw [hwritten]
    exact hs.written_prefix
  · intro hconn
    rw [hlife] at hconn
    rw [hwritten]
    exact hs.written (not_imp_not.mp (fun hne => Life.act_not_connected hne hestablish) hconn)

/-- **One `decode`** takes one message off the input, or none. -/
theorem Serves.decoding (hs : Serves handlers s served) (methods : List Bytes) (ans : Answers)
    (hcontrol : s.control = .decoding) :
    ∃ served', Serves handlers (resume methods h s ans) served' := by
  obtain ⟨hencodable, hreceived⟩ := hs.idle (by rw [hcontrol]; exact nofun)
  have hdecode := RpcCodec.decode_readFrame hs.inputInv s.req
  unfold resume
  rw [hcontrol]
  cases hread : readFrame s.life.conn.inputBuffer.readable with
  | none =>
      rw [hread] at hdecode
      simp only [hdecode]
      exact ⟨served, serves_of_idle nofun hs.inputInv hencodable hreceived hs.responses
        hs.written_prefix hs.written⟩
  | some r =>
      obtain ⟨msg, rest⟩ := r
      rw [hread] at hdecode
      obtain ⟨henc, hframe⟩ := readFrame_eq_some.mp hread
      simp only [hdecode]
      -- the message leaves the buffer, and the bytes it was made of are its frame
      have hinv := Buffer.retrieve_inv hs.inputInv (frame msg).length
      have hrest : (s.life.conn.inputBuffer.retrieve (frame msg).length).readable = rest := by
        rw [Buffer.retrieve_readable hs.inputInv, hframe, List.drop_left]
      have htaken : ∀ m ∈ served ++ [msg], Encodable m :=
        List.forall_mem_append.mpr ⟨hencodable, List.forall_mem_singleton.mpr henc⟩
      have hbytes : (served ++ [msg]).flatMap frame
          ++ (s.life.conn.inputBuffer.retrieve (frame msg).length).readable = s.received := by
        rw [hrest, List.flatMap_append, List.flatMap_singleton, List.append_assoc, ← hframe,
          hreceived]
      by_cases hrequest : msg.type = .kRequest
      · -- in flight
        refine ⟨served, hinv, ?_, ?_, fun _ => hrequest, hs.responses, hs.written_prefix, hs.written⟩
        · rw [inFlight_of_eq (if_pos hrequest)]
          exact htaken
        · rw [inFlight_of_eq (if_pos hrequest)]
          exact hbytes
      · -- served without a response
        have hframes : responseFrames handlers (served ++ [msg]) = responseFrames handlers served :=
          responseFrames_of_not_request hrequest served
        refine ⟨served ++ [msg], serves_of_idle ?_ hinv htaken hbytes ?_ ?_ ?_⟩
        · rw [if_neg hrequest]
          exact nofun
        · exact List.forall_mem_append.mpr ⟨hs.responses,
            List.forall_mem_singleton.mpr fun hreq => absurd hreq hrequest⟩
        · rw [hframes]
          exact hs.written_prefix
        · rw [hframes]
          exact hs.written

/-- **One response** is written for the request in flight. -/
theorem Serves.handling (hs : Serves handlers s served) {ans : Answers}
    (hcontrol : s.control = .handling) (hreturn : HandlersReturn handlers s (.resume ans))
    (hfits : Buffer.new.Fits (encodedSize (response handlers s.req))) :
    Serves handlers (resume handlers.keys h s ans) (served ++ [s.req]) := by
  have hencodable := hs.encodable
  have hreceived := hs.received
  rw [inFlight_of_eq hcontrol] at hencodable hreceived
  have henc : Encodable s.req := hencodable _ (List.mem_append_right _ (List.mem_singleton_self _))
  have hframes : responseFrames handlers (served ++ [s.req])
      = responseFrames handlers served ++ [frame (response handlers s.req)] :=
    responseFrames_of_request (hs.request hcontrol) served
  have hdispatch := dispatch_eq (hreturn hcontrol)
  have hout : encoded (responseTo s.req (result handlers s.req)) = frame (response handlers s.req) :=
    encoded_eq hfits
  unfold resume
  simp only [hcontrol, hdispatch, hout]
  refine serves_of_idle nofun ?_ hencodable ?_ ?_ ?_ ?_
  · show (asyncWrite s.life h _ ans.write ans.onComplete).conn.inputBuffer.Inv
    rw [asyncWrite_inputBuffer]
    exact hs.inputInv
  · show _ ++ (asyncWrite s.life h _ ans.write ans.onComplete).conn.inputBuffer.readable = s.received
    rw [asyncWrite_inputBuffer]
    exact hreceived
  · exact List.forall_mem_append.mpr ⟨hs.responses,
      List.forall_mem_singleton.mpr fun _ => encodable_response henc hfits⟩
  · show (if s.life.conn.state = .kConnected then s.written ++ [frame (response handlers s.req)]
      else s.written) <+: _
    rw [hframes]
    split
    · rename_i hconn
      have hsame := hs.written hconn
      simp only [hsame, List.prefix_refl]
    · exact hs.written_prefix.trans (List.prefix_append _ _)
  · intro hconn
    -- a connection that is connected after the write was so before
    have hbefore : s.life.conn.state = .kConnected :=
      not_imp_not.mp (fun hne => asyncWrite_not_connected hne h _ ans.write ans.onComplete) hconn
    show (if s.life.conn.state = .kConnected then s.written ++ [frame (response handlers s.req)]
      else s.written) = _
    rw [if_pos hbefore, hframes, hs.written hbefore]

/-- **One step of the coroutine.** -/
theorem Serves.resume (hs : Serves handlers s served) {ans : Answers}
    (hreturn : HandlersReturn handlers s (.resume ans))
    (hfits : FitsBuffers handlers s (.resume ans)) :
    ∃ served', Serves handlers (resume handlers.keys h s ans) served' := by
  cases hcontrol : s.control with
  | loop =>
      have hidle : inFlight s = [] := inFlight_of_ne (by rw [hcontrol]; exact nofun)
      refine ⟨served, ?_⟩
      unfold RpcServer.resume
      simp only [hcontrol]
      split
      · exact hs.act (a := .awaitInput h 1) nofun nofun trivial rfl (List.append_nil _).symm
          hidle.symm nofun rfl
      · exact hs.act (a := .shutdown) nofun nofun trivial rfl (List.append_nil _).symm
          hidle.symm nofun rfl
  | reading =>
      have hidle : inFlight s = [] := inFlight_of_ne (by rw [hcontrol]; exact nofun)
      refine ⟨served, ?_⟩
      unfold RpcServer.resume
      simp only [hcontrol]
      exact hs.act (a := .readSome ans.read) nofun nofun (hfits.1 hcontrol) rfl rfl
        hidle.symm nofun rfl
  | decoding => exact hs.decoding _ ans hcontrol
  | handling => exact ⟨_, hs.handling hcontrol hreturn (hfits.2 hcontrol)⟩
  | writing =>
      refine ⟨served, ?_⟩
      unfold RpcServer.resume
      simp only [hcontrol]
      obtain ⟨hencodable, hreceived⟩ := hs.idle (by rw [hcontrol]; exact nofun)
      exact serves_of_idle nofun hs.inputInv hencodable hreceived hs.responses hs.written_prefix
        hs.written
  | done r =>
      refine ⟨served, ?_⟩
      unfold RpcServer.resume
      simp only [hcontrol]
      exact hs

theorem Serves.move (hs : Serves handlers s served) {m : Move} (hreturn : HandlersReturn handlers s m)
    (hfits : FitsBuffers handlers s m) : ∃ served', Serves handlers (move handlers.keys h s m) served' := by
  cases m with
  | other a =>
      exact ⟨served, hs.act a.property.1 a.property.2 hfits rfl rfl rfl hs.request rfl⟩
  | resume ans => exact hs.resume hreturn hfits

/-! ## Whole runs -/

theorem serves_start : Serves handlers {} [] :=
  serves_of_idle nofun Buffer.new_inv (List.forall_mem_nil _) rfl (List.forall_mem_nil _)
    List.nil_prefix fun _ => rfl

/-- A client that decodes what has been written finds the responses, and nothing else. -/
theorem decodeAll_responses {responses : List RpcMessage} (hencodable : ∀ resp ∈ responses, Encodable resp)
    {client : Buffer} (hinv : client.Inv) (hread : client.readable = (responses.map frame).flatten) :
    (RpcCodec.decodeAll client).1 = responses ∧ (RpcCodec.decodeAll client).2.readable = [] := by
  obtain ⟨-, hrun⟩ := RpcCodec.decodeAll_run hinv []
  have hall := Framing.run_flatMap (F := RpcCodec.framing) hencodable []
  rw [hread, ← List.flatMap_def] at hrun
  obtain ⟨houts, hrest⟩ := Prod.mk.inj (hrun.symm.trans hall)
  exact ⟨by simpa using houts, hrest⟩

/-- The requests that have been answered, for a stream of encoded messages. -/
theorem Serves.answered (hs : Serves handlers s served) {msgs : List RpcMessage}
    (hmsgs : ∀ msg ∈ msgs, Encodable msg) (hstream : s.received <+: msgs.flatMap frame) :
    ∃ n, s.written = (((msgs.filter IsRequest).take n).map (response handlers)).map frame
      ∧ ∀ resp ∈ ((msgs.filter IsRequest).take n).map (response handlers), Encodable resp := by
  have htaken : served ++ inFlight s <+: msgs := by
    apply Framing.prefix_of_flatMap_prefix (F := RpcCodec.framing) hs.encodable hmsgs
    rw [← hs.received] at hstream
    exact (List.prefix_append _ _).trans hstream
  have hserved : served.filter IsRequest <+: msgs.filter IsRequest :=
    ((List.prefix_append _ _).trans htaken).filter _
  -- the first requests, as many as have been answered
  let reqs := (served.filter IsRequest).take s.written.length
  have hreqs : reqs = (msgs.filter IsRequest).take reqs.length :=
    List.prefix_iff_eq_take.mp ((List.take_prefix _ _).trans hserved)
  have hwritten : s.written = (reqs.map (response handlers)).map frame := by
    have htake := List.prefix_iff_eq_take.mp hs.written_prefix
    rw [responseFrames, ← List.map_take] at htake
    rw [List.map_map]
    exact htake
  refine ⟨reqs.length, ?_, ?_⟩
  · rw [← hreqs]
    exact hwritten
  · rw [← hreqs]
    intro resp hresp
    obtain ⟨req, hreq, rfl⟩ := List.mem_map.mp hresp
    obtain ⟨hmem, hrequest⟩ := List.mem_filter.mp (List.mem_of_mem_take hreq)
    exact hs.responses req hmem (of_decide_eq_true hrequest)

/-- **RPC responses match requests one to one and in order.** Take a stream of encoded messages, cut
and delivered in any way, and handlers that return.  As long as nothing outgrows its buffer, what has
been written at any moment are the responses to the first requests of the stream, one frame for each,
and a client that decodes it finds these responses. -/
theorem responses_in_order (handlers : Handlers) (h : Coro) (msgs : List RpcMessage)
    (moves : List Move) (hmsgs : ∀ msg ∈ msgs, Encodable msg)
    (hroom : ∀ msg ∈ msgs, Buffer.new.Fits (encodedSize msg))
    (hreturn : Admissible (move handlers.keys h) (HandlersReturn handlers) {} moves)
    (hfits : Admissible (move handlers.keys h) (FitsBuffers handlers) {} moves)
    (hstream : (run (move handlers.keys h) {} moves).received <+: stream msgs) :
    ∃ n, (run (move handlers.keys h) {} moves).written
        = (((msgs.filter IsRequest).take n).map (response handlers)).map frame
      ∧ ∀ client : Buffer, client.Inv →
          client.readable = (run (move handlers.keys h) {} moves).written.flatten →
          (RpcCodec.decodeAll client).1 = ((msgs.filter IsRequest).take n).map (response handlers)
            ∧ (RpcCodec.decodeAll client).2.readable = [] := by
  have hstep : ∀ s m, (∃ served, Serves handlers s served) →
      HandlersReturn handlers s m ∧ FitsBuffers handlers s m →
      ∃ served, Serves handlers (move handlers.keys h s m) served :=
    fun s m ⟨_, hs⟩ hok => hs.move hok.1 hok.2
  obtain ⟨served, hs⟩ := run_invariant hstep ⟨[], serves_start⟩ (hreturn.and hfits)
  rw [RpcCodec.stream_eq hroom] at hstream
  obtain ⟨n, hwritten, hencodable⟩ := hs.answered hmsgs hstream
  refine ⟨n, hwritten, ?_⟩
  intro client hinv hread
  rw [hwritten] at hread
  exact decodeAll_responses hencodable hinv hread

/-- A handler that says everything twice. -/
def echo : Handlers := AList.singleton [97] fun payload => payload ++ payload

/-- A request and a one-way message. -/
def twoMessages : List RpcMessage :=
  [{ requestId := 1, method := [97], payload := [3] }, { type := .kOneway, method := [97] }]

/-- The second message is cut, and the rest of it arrives while the handler is away. -/
def echoMoves : List Move :=
  let kernel : Answers := ⟨⟨none, 11⟩, ⟨23, 0⟩, .done, .ok [3, 3]⟩
  [.resume kernel, .other (bytesArrive ((stream twoMessages).take 30)), .resume kernel,
    .resume kernel, .other (bytesArrive ((stream twoMessages).drop 30)), .resume kernel,
    .resume kernel, .resume kernel]

theorem responses_in_order_sample :
    (run (move echo.keys 7) {} echoMoves).written ≠ []
      ∧ ∃ n, (run (move echo.keys 7) {} echoMoves).written
        = (((twoMessages.filter IsRequest).take n).map (response echo)).map frame := by
  have hmsgs : ∀ msg ∈ twoMessages, Encodable msg := by
    intro msg hmsg
    simp only [twoMessages, List.mem_cons, List.not_mem_nil, or_false] at hmsg
    rcases hmsg with rfl | rfl <;> exact ⟨by decide, by decide⟩
  have hroom : ∀ msg ∈ twoMessages, Buffer.new.Fits (encodedSize msg) := by
    intro msg hmsg
    apply Buffer.Fits.of_le
    simp only [twoMessages, List.mem_cons, List.not_mem_nil, or_false] at hmsg
    rcases hmsg with rfl | rfl <;> decide
  obtain ⟨n, hwritten, -⟩ := responses_in_order echo 7 twoMessages echoMoves hmsgs hroom
    (by decide +kernel) (by decide +kernel) (by decide +kernel)
  exact ⟨by decide +kernel, n, hwritten⟩

/-! ## A response that outgrows its buffer -/

theorem encoded_length_le (msg : RpcMessage) : (encoded msg).length ≤ Buffer.kMaxCapacity := by
  have hsize : (encode msg).size ≤ Buffer.kMaxCapacity := by
    unfold encode
    -- the eight fields, and the space asked for at the start
    iterate 8 apply Buffer.append_size_le
    apply Buffer.ensureWritable_size_le
    rw [Buffer.new_size]
    decide
  rw [encoded, Buffer.peek, List.length_take, List.length_drop]
  exact ((min_le_right _ _).trans (Nat.sub_le _ _)).trans hsize

/-- A handler whose result fills a whole buffer. -/
def filler : Handlers := AList.singleton [97] fun _ => List.replicate Buffer.kMaxCapacity 0

/-- A request to it, and the moves up to the handler. -/
def fillRequest : RpcMessage := { requestId := 1, method := [97] }

/-- The request comes whole, is decoded, and its handler is called. -/
def untilHandled : List Move :=
  [.resume ⟨⟨none, 11⟩, ⟨0, 0⟩, .done, .ok []⟩, .other (bytesArrive (frame fillRequest)),
    .resume ⟨⟨none, 11⟩, ⟨0, 0⟩, .done, .ok []⟩, .resume ⟨⟨none, 11⟩, ⟨0, 0⟩, .done, .ok []⟩]

/-- The handler returns. -/
def handled : Move :=
  .resume ⟨⟨none, 11⟩, ⟨0, 0⟩, .done, .ok (List.replicate Buffer.kMaxCapacity 0)⟩

theorem run_untilHandled :
    (run (move filler.keys 7) {} untilHandled).control = .handling
      ∧ (run (move filler.keys 7) {} untilHandled).req = fillRequest
      ∧ (run (move filler.keys 7) {} untilHandled).received = frame fillRequest
      ∧ (run (move filler.keys 7) {} untilHandled).written = []
      ∧ (run (move filler.keys 7) {} untilHandled).life.conn.state = .kConnected := by
  decide +kernel

/-- The response to a request whose handler fills a buffer is cut off. -/
theorem response_cut_off :
    Admissible (move filler.keys 7) (HandlersReturn filler) {} (untilHandled ++ [handled])
      ∧ (run (move filler.keys 7) {} (untilHandled ++ [handled])).received <+: stream [fillRequest]
      ∧ ¬ ∃ n, (run (move filler.keys 7) {} (untilHandled ++ [handled])).written
        = (((([fillRequest] : List RpcMessage).filter IsRequest).take n).map (response filler)).map
          frame := by
  obtain ⟨hcontrol, hreq, hreceived, hwritten, hconn⟩ := run_untilHandled
  -- the state after the handler has returned, symbolically: its result is not to be evaluated
  have hlookup : filler.lookup fillRequest.method
      = some fun _ => List.replicate Buffer.kMaxCapacity 0 := rfl
  have hreturn : HandlersReturn filler (run (move filler.keys 7) {} untilHandled) handled := by
    intro _ handler hmem
    rw [hreq, hlookup, Option.mem_def] at hmem
    rw [← Option.some.inj hmem]
  have hdispatch := dispatch_eq (hreturn hcontrol)
  have hlast : run (move filler.keys 7) {} (untilHandled ++ [handled])
      = move filler.keys 7 (run (move filler.keys 7) {} untilHandled) handled := by
    rw [run_append, run_cons, run_nil]
  have hout : (move filler.keys 7 (run (move filler.keys 7) {} untilHandled) handled).written
      = [encoded (response filler fillRequest)] := by
    simp only [move, handled, resume, hcontrol, hconn, hwritten, hreq, if_true]
    rfl
  have hin : (move filler.keys 7 (run (move filler.keys 7) {} untilHandled) handled).received
      = frame fillRequest := by
    simp only [move, handled, resume, hcontrol, hdispatch, hreceived]
  refine ⟨admissible_append.mpr ⟨by decide +kernel, hreturn, trivial⟩, ?_, ?_⟩
  · rw [hlast, hin]
    decide +kernel
  · rw [hlast, hout]
    rintro ⟨n, heq⟩
    have hrequests : ([fillRequest] : List RpcMessage).filter IsRequest = [fillRequest] := rfl
    rw [hrequests] at heq
    cases n with
    | zero => exact absurd heq nofun
    | succ n =>
        -- the frame of the response is longer than any buffer
        rw [List.take_succ_cons, List.take_nil] at heq
        have hframe : encoded (response filler fillRequest) = frame (response filler fillRequest) :=
          List.head_eq_of_cons_eq heq
        have hlen := encoded_length_le (response filler fillRequest)
        have hresult : (response filler fillRequest).payload.length = Buffer.kMaxCapacity := by
          show (result filler fillRequest).length = _
          rw [result, hlookup]
          exact List.length_replicate
        rw [hframe, RpcCodec.frame_length, encodedSize, hresult] at hlen
        omega

end LightNet.Rpc.RpcServer
