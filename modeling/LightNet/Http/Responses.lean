/-
# LightNet.Http.Responses — what an HTTP connection answers.

`Watched` puts two logs beside the coroutine of `handle_connection`: what the socket has delivered and
what has been given to `send` on a connected connection.  No step looks at either.

The account that holds at every moment (`Serves`): the bytes received have come to the same place as
the parser with the unread bytes, and the responses written are those to the requests taken out so
far.  So the responses are those to the first requests of the stream, in order, whatever else happens
to the connection; on the wire there is nothing else, as long as nobody else sends.
-/
import LightNet.Http.Routes

namespace LightNet.Http.HttpServer

open LightNet.Foundation LightNet.Core LightNet.Net LightNet.Coro

/-- The bytes of the response to a request. -/
def answer (ord : IterOrder Bytes) (routes : Routes) (req : HttpRequest) : Bytes :=
  (respond routes req).serialize ord

/-! ## The coroutine with its logs -/

/-- A session, with what has been received and what has been given to `send`. -/
structure Watched where
  serving : Serving := {}
  received : Bytes := []
  written : List Bytes := []

/-- The bytes that a move reads from the socket. -/
def reads (s : Serving) : Move → Bytes
  | .other a => incoming s.life a.val
  | .resume ans => if s.control = .reading then incoming s.life (.readSome ans.read) else []

/-- What a move gives to `send` on a connected connection. -/
def sends (ord : IterOrder Bytes) (routes : List Bytes) (s : Serving) : Move → List Bytes
  | .other _ => []
  | .resume ans =>
      match s.control, dispatch routes s.parser.request ans.handler with
      | .handling, .ok resp => if s.life.conn.state = .kConnected then [resp.serialize ord] else []
      | _, _ => []

/-- What the move does, and what the logs have then. -/
def watch (ord : IterOrder Bytes) (routes : List Bytes) (h : Coro) (w : Watched) (m : Move) :
    Watched where
  serving := move ord routes h w.serving m
  received := w.received ++ reads w.serving m
  written := w.written ++ sends ord routes w.serving m

/-! ## What is asked of the moves -/

/-- A handler of a request returns its response, or throws. -/
def HandlersAnswer (routes : Routes) (w : Watched) : Move → Prop
  | .other _ => True
  | .resume ans =>
      w.serving.control = .handling →
        ∀ handler ∈ routes.lookup (routeKey w.serving.parser.request.method
            w.serving.parser.request.path),
          ∀ resp ∈ ans.handler.toOption, resp = handler w.serving.parser.request

/-- Neither the unread input nor the part of a response that waits outgrows its buffer. -/
def FitsBuffers (ord : IterOrder Bytes) (routes : Routes) (w : Watched) : Move → Prop
  | .other a => InputFits w.serving.life a.val
  | .resume ans =>
      (w.serving.control = .reading → InputFits w.serving.life (.readSome ans.read))
        ∧ (w.serving.control = .handling → w.serving.life.conn.state = .kConnected →
          w.serving.life.conn.outputBuffer.Fits (w.serving.life.conn.sendRest
            (answer ord routes w.serving.parser.request) ans.write).length)

/-- Nobody else sends on the connection. -/
def SendsAlone (_ : Watched) : Move → Prop
  | .other a => a.val.Silent
  | .resume ans => ans.onComplete.Silent

instance (ord : IterOrder Bytes) (routes : Routes) (w : Watched) :
    ∀ m, Decidable (FitsBuffers ord routes w m)
  | .other _ => inferInstanceAs (Decidable (InputFits _ _))
  | .resume _ => inferInstanceAs (Decidable (_ ∧ _))

instance (w : Watched) : ∀ m, Decidable (SendsAlone w m)
  | .other a => inferInstanceAs (Decidable a.val.Silent)
  | .resume ans => inferInstanceAs (Decidable ans.onComplete.Silent)

/-! ## The account -/

/-- The place of a stream at which the coroutine stands, while it runs: before `parse` the parser
waits, and behind the response the request has been taken out. -/
def StandsAt (ord : IterOrder Bytes) (s : Serving) (place : Exchanges) : Prop :=
  match s.control with
  | .loop | .reading =>
      place.parser = (s.parser, none) ∧ place.closing = false
        ∧ HttpParser.advance ord (s.parser, none) [] = none ∧ s.parser.state ≠ .kComplete
  | .handling =>
      place.parser = (s.parser, none) ∧ place.closing = false ∧ s.parser.state = .kComplete
  | .writing =>
      if s.parser.keepAlive then place.parser = (.new, none) ∧ place.closing = false
      else place.closing = true
  | .done _ => True

/-- The requests of `place` have been answered. -/
structure Serves (ord : IterOrder Bytes) (routes : Routes) (w : Watched) (place : Exchanges) : Prop where
  inputInv : w.serving.life.conn.inputBuffer.Inv
  received : (Exchanges.consumer ord).run {} w.received
    = (Exchanges.consumer ord).run place w.serving.life.conn.inputBuffer.readable
  stands : StandsAt ord w.serving place
  written_front : w.written <+: place.requests.map (answer ord routes)
  written : w.serving.life.conn.state = .kConnected →
    w.written = place.requests.map (answer ord routes)
  delivers : w.serving.life.Delivers w.written.flatten

variable {ord : IterOrder Bytes} {routes : Routes} {h : Coro} {w : Watched} {place : Exchanges}

/-! ## Every move keeps it -/

/-- **An act on the connection** keeps the account. -/
theorem Serves.act (hs : Serves ord routes w place) {a : Act} (hestablish : a ≠ .connectEstablished)
    (hretrieve : ∀ n, a ≠ .retrieve n) (hfits : InputFits w.serving.life a) (hsilent : a.Silent)
    {w' : Watched} (hlife : w'.serving.life = w.serving.life.act a)
    (hreceived : w'.received = w.received ++ incoming w.serving.life a)
    (hwritten : w'.written = w.written) (hstands : StandsAt ord w'.serving place) :
    Serves ord routes w' place := by
  obtain ⟨hinv, hread⟩ := act_readable hs.inputInv hretrieve hfits
  constructor
  · rw [hlife]
    exact hinv
  · rw [hlife, hread, hreceived, Consumer.run_append, hs.received, ← Consumer.run_append]
  · exact hstands
  · rw [hwritten]
    exact hs.written_front
  · intro hconn
    rw [hlife] at hconn
    rw [hwritten]
    exact hs.written (not_imp_not.mp (fun hne => Life.act_not_connected hne hestablish) hconn)
  · rw [hlife, hwritten]
    exact hs.delivers.act hsilent hestablish

/-- A move that takes in what it reads and writes nothing. -/
theorem Serves.takes (hs : Serves ord routes w place) {bytes : Bytes} {s' : Serving}
    {place' : Exchanges} (hrequests : place'.requests = place.requests)
    (hinv : s'.life.conn.inputBuffer.Inv)
    (hstream : (Exchanges.consumer ord).run {} (w.received ++ bytes)
      = (Exchanges.consumer ord).run place' s'.life.conn.inputBuffer.readable)
    (hstands : StandsAt ord s' place')
    (hconn : s'.life.conn.state = .kConnected → w.serving.life.conn.state = .kConnected)
    (hdelivers : s'.life.Delivers w.written.flatten) :
    Serves ord routes { serving := s', received := w.received ++ bytes, written := w.written } place' where
  inputInv := hinv
  received := hstream
  stands := hstands
  written_front := by
    rw [hrequests]
    exact hs.written_front
  written hnow := by
    rw [hrequests]
    exact hs.written (hconn hnow)
  delivers := hdelivers

/-- **One `parse`** over the bytes that are there. -/
theorem Serves.reading (hs : Serves ord routes w place) {ans : Answers}
    (hcontrol : w.serving.control = .reading) (hfits : InputFits w.serving.life (.readSome ans.read)) :
    ∃ place', Serves ord routes (watch ord routes.keys h w (.resume ans)) place' := by
  have hstands := hs.stands
  simp only [StandsAt, hcontrol] at hstands
  obtain ⟨hparser, hopen, -, -⟩ := hstands
  obtain ⟨hinv, hread⟩ := act_readable hs.inputInv (a := .readSome ans.read) (by simp) hfits
  have hagrees := HttpParser.parse_agrees ord (p := w.serving.parser) hinv
  have hstuck := Consumer.step_run (C := HttpParser.consumer ord) (w.serving.parser, none)
    (w.serving.life.act (.readSome ans.read)).conn.inputBuffer.readable
  rw [← hagrees.state_eq] at hstuck
  -- the stream has come to where the parser now is
  have hstream := Consumer.run_append (C := Exchanges.consumer ord) {} w.received
    (incoming w.serving.life (.readSome ans.read))
  rw [hs.received, ← Consumer.run_append, ← hread, Exchanges.run_parsing place hopen, hparser,
    ← hagrees.state_eq, ← hagrees.readable_eq] at hstream
  have hlife : (w.serving.life.act (.readSome ans.read)).Delivers w.written.flatten :=
    hs.delivers.act (a := .readSome ans.read) trivial (by simp)
  have hstate : (w.serving.life.act (.readSome ans.read)).conn.state = w.serving.life.conn.state := by
    show (w.serving.life.conn.readSome ans.read).2.state = _
    unfold TcpConnection.readSome
    split <;> rfl
  have hstill : (w.serving.life.act (.readSome ans.read)).conn.state = .kConnected →
      w.serving.life.conn.state = .kConnected := fun hconn => hstate.symm.trans hconn
  simp only [watch, move, resume, reads, sends, hcontrol, if_true, List.append_nil]
  generalize w.serving.parser.parse ord
    (w.serving.life.act (.readSome ans.read)).conn.inputBuffer = result at *
  refine ⟨{ place with parser := (result.parser, result.thrown) }, ?_⟩
  cases hthrown : result.thrown with
  | some e =>
      rw [hthrown] at hstream
      exact hs.takes rfl hagrees.inv hstream trivial hstill (takeInput_delivers hlife _)
  | none =>
      rw [hthrown] at hstream hstuck
      dsimp only
      split
      · rename_i hcomplete
        exact hs.takes rfl hagrees.inv hstream ⟨rfl, hopen, hcomplete⟩ hstill
          (takeInput_delivers hlife _)
      · -- a refused line: the connection is shut down
        have hbuf : ((takeInput (w.serving.life.act (.readSome ans.read)) result.buf).act
            .shutdown).conn.inputBuffer = result.buf := Life.act_inputBuffer _ .shutdown
        have hinv' := hagrees.inv
        rw [← hbuf] at hstream hinv'
        exact hs.takes rfl hinv' hstream trivial
          (fun hconn => absurd hconn (TcpConnection.shutdown_not_connected _))
          ((takeInput_delivers hlife _).act (a := .shutdown) trivial (by simp))
      · rename_i hcomplete _
        exact hs.takes rfl hagrees.inv hstream
          ⟨rfl, hopen, (HttpParser.consumer ord).step_nil_of_none hstuck, hcomplete⟩ hstill
          (takeInput_delivers hlife _)

/-- **One response** is written for the request that is complete. -/
theorem Serves.handling (hs : Serves ord routes w place) {ans : Answers}
    (hcontrol : w.serving.control = .handling) (hanswer : HandlersAnswer routes w (.resume ans))
    (hfits : FitsBuffers ord routes w (.resume ans)) (halone : SendsAlone w (.resume ans)) :
    ∃ place', Serves ord routes (watch ord routes.keys h w (.resume ans)) place' := by
  have hstands := hs.stands
  simp only [StandsAt, hcontrol] at hstands
  obtain ⟨hparser, hopen, hcomplete⟩ := hstands
  cases hdispatch : dispatch routes.keys w.serving.parser.request ans.handler with
  | error what =>
      -- the exception ends the coroutine, and no response is written
      have hreceived : (Exchanges.consumer ord).run {} (w.received ++ [])
          = (Exchanges.consumer ord).run place w.serving.life.conn.inputBuffer.readable := by
        rw [List.append_nil]
        exact hs.received
      have hthrown : Serves ord routes
          { serving := { w.serving with control := .done (.threw (.handler what)) },
            received := w.received ++ [], written := w.written } place :=
        hs.takes rfl hs.inputInv hreceived trivial id hs.delivers
      refine ⟨place, ?_⟩
      simp only [watch, move, resume, reads, sends, hcontrol, hdispatch, reduceCtorEq, if_false,
        List.append_nil] at hthrown ⊢
      exact hthrown
  | ok resp =>
      obtain rfl := dispatch_eq (hanswer hcontrol) hdispatch
      have hsent := asyncWrite_delivers hs.delivers h halone (hfits.2 hcontrol)
      have hreceived := hs.received
      rw [Exchanges.run_complete hopen hparser hcomplete,
        ← asyncWrite_inputBuffer w.serving.life h (answer ord routes w.serving.parser.request)
          ans.write ans.onComplete] at hreceived
      have hinv := hs.inputInv
      rw [← asyncWrite_inputBuffer w.serving.life h (answer ord routes w.serving.parser.request)
          ans.write ans.onComplete] at hinv
      have hanswers : (place.complete w.serving.parser).requests.map (answer ord routes)
          = place.requests.map (answer ord routes) ++ [answer ord routes w.serving.parser.request] := by
        show (place.requests ++ [w.serving.parser.request]).map _ = _
        rw [List.map_append, List.map_singleton]
      have hplace : StandsAt ord { w.serving with control := .writing }
          (place.complete w.serving.parser) := by
        simp only [StandsAt, Exchanges.complete]
        split
        · rename_i hkeep
          simp only [hkeep, Bool.not_true, and_true]
          rfl
        · rename_i hkeep
          simp only [hkeep, Bool.not_false]
      refine ⟨place.complete w.serving.parser, ?_⟩
      simp only [watch, move, resume, reads, sends, hcontrol, hdispatch, reduceCtorEq, if_false,
        List.append_nil]
      by_cases hconn : w.serving.life.conn.state = .kConnected
      · rw [if_pos hconn] at hsent ⊢
        have hwritten := hs.written hconn
        refine ⟨hinv, hreceived, hplace, ?_, ?_, ?_⟩
        · rw [hanswers, hwritten]
          exact List.prefix_refl _
        · intro _
          rw [hanswers, hwritten]
          rfl
        · rw [List.flatten_append, List.flatten_singleton]
          exact hsent
      · rw [if_neg hconn] at hsent ⊢
        rw [List.append_nil]
        refine ⟨hinv, hreceived, hplace, ?_, ?_, hsent⟩
        · rw [hanswers]
          exact hs.written_front.trans (List.prefix_append _ _)
        · intro hnow
          exact absurd hnow (asyncWrite_not_connected hconn h _ ans.write ans.onComplete)

/-- **One step of the coroutine.** -/
theorem Serves.resume (hs : Serves ord routes w place) {ans : Answers}
    (hanswer : HandlersAnswer routes w (.resume ans)) (hfits : FitsBuffers ord routes w (.resume ans))
    (halone : SendsAlone w (.resume ans)) :
    ∃ place', Serves ord routes (watch ord routes.keys h w (.resume ans)) place' := by
  have hstands := hs.stands
  unfold StandsAt at hstands
  cases hcontrol : w.serving.control with
  | loop =>
      refine ⟨place, ?_⟩
      simp only [hcontrol] at hstands
      simp only [watch, move, HttpServer.resume, reads, sends, hcontrol, reduceCtorEq, if_false,
        List.append_nil]
      split
      · exact hs.act (a := .awaitInput h 1) (by simp) (by simp) trivial trivial rfl
          (List.append_nil _).symm rfl hstands
      · exact hs.act (a := .shutdown) (by simp) (by simp) trivial trivial rfl
          (List.append_nil _).symm rfl trivial
  | reading => exact hs.reading hcontrol (hfits.1 hcontrol)
  | handling => exact hs.handling hcontrol hanswer hfits halone
  | writing =>
      refine ⟨place, ?_⟩
      simp only [hcontrol] at hstands
      simp only [watch, move, HttpServer.resume, reads, sends, hcontrol, reduceCtorEq, if_false,
        List.append_nil]
      split at hstands
      · rename_i hkeep
        rw [if_pos hkeep]
        have hfresh : StandsAt ord { w.serving with parser := w.serving.parser.reset, control := .loop }
            place := ⟨hstands.1, hstands.2, rfl, (by decide : HttpParser.new.state ≠ .kComplete)⟩
        exact ⟨hs.inputInv, hs.received, hfresh, hs.written_front, hs.written, hs.delivers⟩
      · rename_i hkeep
        rw [if_neg hkeep]
        exact hs.act (a := .shutdown) (by simp) (by simp) trivial trivial rfl
          (List.append_nil _).symm rfl trivial
  | done r =>
      refine ⟨place, ?_⟩
      simp only [watch, move, HttpServer.resume, reads, sends, hcontrol, reduceCtorEq, if_false,
        List.append_nil]
      exact hs

theorem Serves.watch (hs : Serves ord routes w place) {m : Move} (hanswer : HandlersAnswer routes w m)
    (hfits : FitsBuffers ord routes w m) (halone : SendsAlone w m) :
    ∃ place', Serves ord routes (watch ord routes.keys h w m) place' := by
  cases m with
  | other a =>
      exact ⟨place, hs.act a.property.1 a.property.2 hfits halone rfl rfl (List.append_nil _) hs.stands⟩
  | resume ans => exact hs.resume hanswer hfits halone

/-! ## Whole runs -/

theorem serves_start : Serves ord routes {} {} where
  inputInv := Buffer.new_inv
  received := rfl
  stands := ⟨rfl, rfl, rfl, by decide⟩
  written_front := List.prefix_refl _
  written _ := rfl
  delivers := Life.delivers_established

/-- The coroutine is back in its loop, and the bytes it has not read are no complete line or body. -/
def Idle (ord : IterOrder Bytes) (s : Serving) : Prop :=
  (s.control = .loop ∨ s.control = .reading)
    ∧ HttpParser.advance ord (s.parser, none) s.life.conn.inputBuffer.readable = none

/-- The requests taken out are the first ones of the stream, and all of them once nothing more can be
done with what is there. -/
theorem Serves.requests (hs : Serves ord routes w place) :
    place.requests <+: requestsOf ord w.received
      ∧ (Idle ord w.serving → place.requests = requestsOf ord w.received) := by
  rw [requestsOf, hs.received]
  refine ⟨Exchanges.requests_mono _ _, ?_⟩
  rintro ⟨hcontrol, hstuck⟩
  have hstands := hs.stands
  have hplace : place.parser = (w.serving.parser, none) ∧ place.closing = false
      ∧ w.serving.parser.state ≠ .kComplete := by
    rcases hcontrol with hcontrol | hcontrol <;>
      · simp only [StandsAt, hcontrol] at hstands
        exact ⟨hstands.1, hstands.2.1, hstands.2.2.2⟩
  obtain ⟨hparser, hopen, hcomplete⟩ := hplace
  have hnone : (Exchanges.consumer ord).step place w.serving.life.conn.inputBuffer.readable = none := by
    show place.advance ord _ = none
    rw [Exchanges.advance_of_incomplete hopen (by rw [hparser]; exact hcomplete), hparser, hstuck,
      Option.map_none]
  rw [Consumer.run_of_none hnone]

/-- The account holds after every run. -/
theorem serves_run (ord : IterOrder Bytes) (routes : Routes) (h : Coro) (moves : List Move)
    (hanswer : Admissible (watch ord routes.keys h) (HandlersAnswer routes) {} moves)
    (hfits : Admissible (watch ord routes.keys h) (FitsBuffers ord routes) {} moves)
    (halone : Admissible (watch ord routes.keys h) SendsAlone {} moves) :
    ∃ place, Serves ord routes (run (watch ord routes.keys h) {} moves) place := by
  have hstep : ∀ w m, (∃ place, Serves ord routes w place) →
      (HandlersAnswer routes w m ∧ FitsBuffers ord routes w m) ∧ SendsAlone w m →
      ∃ place, Serves ord routes (HttpServer.watch ord routes.keys h w m) place :=
    fun w m ⟨_, hs⟩ hok => hs.watch hok.1.1 hok.1.2 hok.2
  exact run_invariant hstep ⟨{}, serves_start⟩ ((hanswer.and hfits).and halone)

/-! ## The contract -/

/-- **HTTP responses match requests one to one and in order.** Take any stream, cut and delivered in
any way, handlers that return or throw, and anything else that may happen to the connection but a
send.  As long as nothing outgrows its buffer, what has been given to the connection at any moment are
the responses to the first requests of the stream, and to all of them when the connection is connected
and the coroutine idle.  The wire carries these bytes and no others, and nothing but the unsent bytes
is missing while the connection is connected. -/
theorem answers_in_order (ord : IterOrder Bytes) (routes : Routes) (h : Coro) (moves : List Move)
    (hanswer : Admissible (watch ord routes.keys h) (HandlersAnswer routes) {} moves)
    (hfits : Admissible (watch ord routes.keys h) (FitsBuffers ord routes) {} moves)
    (halone : Admissible (watch ord routes.keys h) SendsAlone {} moves) :
    let w := run (watch ord routes.keys h) {} moves
    w.written <+: (requestsOf ord w.received).map (answer ord routes)
      ∧ w.serving.life.conn.wire <+: w.written.flatten
      ∧ (w.serving.life.conn.state = .kConnected →
          w.serving.life.conn.wire ++ w.serving.life.conn.outputBuffer.readable = w.written.flatten
            ∧ (Idle ord w.serving → w.written = (requestsOf ord w.received).map (answer ord routes))) := by
  intro w
  obtain ⟨place, hs⟩ := serves_run ord routes h moves hanswer hfits halone
  obtain ⟨hfirst, hall⟩ := hs.requests
  refine ⟨hs.written_front.trans (hfirst.map _), ?_, fun hconn => ⟨hs.delivers.connected hconn, ?_⟩⟩
  · exact (List.prefix_append _ _).trans hs.delivers.accounts.front
  · intro hidle
    rw [hs.written hconn, hall hidle]

/-- A server that greets whoever asks for its root. -/
def greeting : HttpResponse := HttpResponse.setBody {} (ascii ['h', 'i'])

/-- `get("/", ...)`. -/
def greeter : Routes := get ∅ [47] fun _ => greeting

/-- Two requests, of which the second is cut inside its header and has no handler; the rest of it
arrives while the handler of the first is away. -/
def greeterMoves : List Move :=
  let stream := [WireRequest.render HttpParser.getRoot, WireRequest.render HttpParser.postLine].flatten
  let kernel : Answers := ⟨⟨none, 11⟩, ⟨1000, 0⟩, .done, .ok greeting⟩
  [.resume kernel, .other (bytesArrive (stream.take 30)), .resume kernel,
    .other (bytesArrive (stream.drop 30)), .resume kernel, .resume kernel, .resume kernel,
    .resume kernel, .resume kernel, .resume kernel]

/-- The only handler says what the moves say. -/
theorem greeter_answers (w : Watched) : ∀ m ∈ greeterMoves, HandlersAnswer greeter w m := by
  have hkernel : ∀ ans : Answers, ans.handler = .ok greeting → HandlersAnswer greeter w (.resume ans) := by
    intro ans hans _ handler hhandler resp hresp
    rw [hans] at hresp
    rw [greeter, get, addRoute, UnorderedMap.lookup_assign] at hhandler
    split at hhandler
    · obtain rfl := Option.some.inj hhandler
      exact (Option.some.inj hresp).symm
    · exact absurd hhandler (by simp)
  intro m hm
  simp only [greeterMoves, List.mem_cons, List.not_mem_nil, or_false] at hm
  rcases hm with rfl | rfl | rfl | rfl | rfl | rfl | rfl | rfl | rfl | rfl <;>
    first | exact hkernel _ rfl | exact trivial

theorem answers_in_order_sample :
    (run (watch (IterOrder.entries Bytes) greeter.keys 7) {} greeterMoves).written.length = 2
      ∧ (run (watch (IterOrder.entries Bytes) greeter.keys 7) {} greeterMoves).written
        <+: (requestsOf (IterOrder.entries Bytes)
          (run (watch (IterOrder.entries Bytes) greeter.keys 7) {} greeterMoves).received).map
            (answer (IterOrder.entries Bytes) greeter) := by
  have hanswer : Admissible (watch (IterOrder.entries Bytes) greeter.keys 7) (HandlersAnswer greeter)
      {} greeterMoves := by
    refine admissible_iff_split.mpr fun pre m post hsplit => greeter_answers _ m ?_
    rw [hsplit]
    exact List.mem_append_right _ List.mem_cons_self
  have horder := answers_in_order (IterOrder.entries Bytes) greeter 7 greeterMoves hanswer
    (by decide +kernel) (by decide +kernel)
  exact ⟨by decide +kernel, horder.1⟩

end LightNet.Http.HttpServer
