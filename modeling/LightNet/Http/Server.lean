/-
# LightNet.Http.Server — the loop of `HttpServer::handle_connection`.

`turn` is one iteration of the `while`.  Nothing in it looks at whether `parse` consumed anything:
with a part of a line or of a body left in the buffer, `AsyncRead{conn, 1}` is ready at once and the
next turn finds the same bytes.  `EndsInside` says which received bytes lead there, and `settles_iff`
that these are all.
-/
import LightNet.Coro.Handler
import LightNet.Http.ParserQueue

namespace LightNet.Http

open LightNet.Foundation LightNet.Core LightNet.Net LightNet.Coro
open Buffer (searchCrlf)

namespace HttpServer

/-- The coroutine between two iterations. -/
structure Session where
  parser : HttpParser
  conn : TcpConnection
  served : Nat

/-- What an iteration does with the outcome of `parse`. -/
def afterParse (world : Dispatcher HttpRequest) (served : Nat) (conn : TcpConnection)
    (result : ParseResult) : Turn Session Stop :=
  let conn := { conn with inputBuffer := result.buf }
  if result.thrown = none then
    match result.parser.state with
    | .kComplete =>
        match world.serve served result.parser.request conn with
        | none => .stop (.away conn)
        | some conn =>
            if result.parser.keepAlive then
              .again { parser := result.parser.reset, conn, served := served + 1 }
            else .stop (.finished conn.shutdown)
    | .kError => .stop (.finished conn.shutdown)
    | _ => .again { parser := result.parser, conn, served }
  else .stop (.thrown conn)

/-- One iteration of the loop in `handle_connection`, by the coroutine `h`. -/
def turn (ord : IterOrder Bytes) (world : Dispatcher HttpRequest) (h : Coro) (r : ReadResult)
    (s : Session) : Turn Session Stop :=
  if s.conn.isConnected then
    match awaitRead s.conn r with
    | none => .stop (.suspended (s.conn.asyncReadSuspend h))
    | some conn => afterParse world s.served conn (s.parser.parse ord conn.inputBuffer)
  else .stop (.finished s.conn.shutdown)

/-! ## Bytes that end inside a line or a body -/

/-- The parser waits for more bytes. -/
def Waiting (p : HttpParser) : Prop := p.ReadsLine ∨ p.state = .kBody

/-- The unread bytes `ys` are a part of a line, or of the body, that the parser `q` waits for. -/
def Inside (q : HttpParser) (ys : Bytes) : Prop :=
  q.ReadsLine ∧ searchCrlf ys = none ∨ q.state = .kBody ∧ ys.length < q.contentLength

/-- From the parser `p` on, the bytes are requests that complete and keep the connection alive, then
whole lines, then a non-empty part of a line or of a body. -/
inductive EndsInside (ord : IterOrder Bytes) : HttpParser → Bytes → Prop
  | inside {p q : HttpParser} {xs ys : Bytes}
      (hrun : (HttpParser.consumer ord).run (p, none) xs = ((q, none), ys))
      (hinside : Inside q ys) (hys : ys ≠ []) : EndsInside ord p xs
  | next {p q : HttpParser} {xs ys : Bytes}
      (hrun : (HttpParser.consumer ord).run (p, none) xs = ((q, none), ys))
      (hcomplete : q.state = .kComplete) (hkeep : q.keepAlive = true)
      (hrest : EndsInside ord .new ys) : EndsInside ord p xs

/-- Parsing gives no bytes back. -/
theorem advance_length_le {ord : IterOrder Bytes} {s s' : ParserState} {xs ys : Bytes}
    (h : HttpParser.advance ord s xs = some (s', ys)) : ys.length ≤ xs.length := by
  rcases HttpParser.state_cases s with ⟨p, rfl, hp⟩ | ⟨p, rfl, hp⟩ | hnone
  · rw [HttpParser.advance_of_readsLine ord hp] at h
    obtain ⟨crlf, -, heq⟩ := Option.map_eq_some_iff.mp h
    obtain ⟨rfl, rfl⟩ := Prod.mk.inj heq
    split
    · exact le_refl _
    · rw [List.length_drop]
      exact Nat.sub_le _ _
  · rw [HttpParser.advance_of_body hp] at h
    split at h
    · exact absurd h (by simp)
    · obtain ⟨rfl, rfl⟩ := Prod.mk.inj (Option.some.inj h)
      rw [List.length_drop]
      exact Nat.sub_le _ _
  · exact absurd h (by simp [hnone])

theorem run_length_le (ord : IterOrder Bytes) (s : ParserState) (xs : Bytes) :
    ((HttpParser.consumer ord).run s xs).2.length ≤ xs.length := by
  induction s, xs using Consumer.run_induction (C := HttpParser.consumer ord) with
  | stuck s xs h => rw [Consumer.run_of_none h]
  | next s xs s' ys h ih =>
      rw [Consumer.run_of_some h]
      exact le_trans ih (advance_length_le h)

/-- Where something is left, something was there. -/
theorem EndsInside.ne_nil {ord : IterOrder Bytes} {p : HttpParser} {xs : Bytes}
    (h : EndsInside ord p xs) : xs ≠ [] := by
  have hlen : ∀ {p q : HttpParser} {xs ys : Bytes},
      (HttpParser.consumer ord).run (p, none) xs = ((q, none), ys) → ys ≠ [] → xs ≠ [] := by
    intro p q xs ys hrun hys hnil
    have hle := run_length_le ord (p, none) xs
    rw [hrun, hnil, List.length_nil] at hle
    exact hys (List.length_eq_zero_iff.mp (Nat.le_zero.mp hle))
  induction h with
  | inside hrun _ hys => exact hlen hrun hys
  | next hrun _ _ _ ih => exact hlen hrun ih

theorem Inside.waiting {q : HttpParser} {ys : Bytes} (h : Inside q ys) : Waiting q := by
  rcases h with ⟨hq, -⟩ | ⟨hq, -⟩
  · exact .inl hq
  · exact .inr hq

theorem advance_of_inside {ord : IterOrder Bytes} {q : HttpParser} {ys : Bytes} (h : Inside q ys) :
    HttpParser.advance ord (q, none) ys = none := by
  rcases h with ⟨hq, hnone⟩ | ⟨hq, hlen⟩
  · rw [HttpParser.advance_of_readsLine ord hq, hnone, Option.map_none]
  · rw [HttpParser.advance_of_body hq, if_pos hlen]

/-- A parser that waits is stuck only inside a line or a body. -/
theorem inside_of_advance {ord : IterOrder Bytes} {q : HttpParser} {ys : Bytes} (hq : Waiting q)
    (h : HttpParser.advance ord (q, none) ys = none) : Inside q ys := by
  rcases hq with hq | hq
  · rw [HttpParser.advance_of_readsLine ord hq, Option.map_eq_none_iff] at h
    exact .inl ⟨hq, h⟩
  · right
    refine ⟨hq, ?_⟩
    by_contra hlen
    rw [HttpParser.advance_of_body hq, if_neg hlen] at h
    exact absurd h (by simp)

theorem waiting_or_done (q : HttpParser) :
    Waiting q ∨ q.state = .kComplete ∨ q.state = .kError := by
  cases h : q.state with
  | kStartLine => exact .inl (.inl (.inl h))
  | kHeaders => exact .inl (.inl (.inr h))
  | kBody => exact .inl (.inr h)
  | kComplete => exact .inr (.inl rfl)
  | kError => exact .inr (.inr rfl)

theorem Waiting.not_done {q : HttpParser} (h : Waiting q) : q.state ≠ .kComplete ∧ q.state ≠ .kError := by
  rcases h with (h | h) | h <;> rw [h] <;> exact ⟨by decide, by decide⟩

/-! ## One turn -/

variable {ord : IterOrder Bytes} {world : Dispatcher HttpRequest} {h : Coro} {r : ReadResult}

/-- The loop goes on after `parse` only with a request that keeps the connection alive, or with a
parser that waits; the bytes left are those `parse` has left. -/
theorem afterParse_again {served : Nat} {c : TcpConnection} {result : ParseResult} {s' : Session}
    (hagain : afterParse world served c result = .again s') :
    result.thrown = none ∧ s'.conn.inputBuffer = result.buf
      ∧ (result.parser.state = .kComplete ∧ result.parser.keepAlive = true ∧ s'.parser = .new
        ∨ Waiting result.parser ∧ s'.parser = result.parser) := by
  unfold afterParse at hagain
  dsimp only at hagain
  split at hagain
  · rename_i hthrown
    refine ⟨hthrown, ?_⟩
    split at hagain
    · -- complete: the request is served, and the loop goes on only if it is kept alive
      rename_i hstate
      split at hagain
      · exact absurd hagain (by simp)
      · rename_i c' hserve
        split at hagain
        · rename_i hkeep
          obtain rfl := Turn.again.inj hagain
          exact ⟨world.keepsInput hserve, .inl ⟨hstate, hkeep, rfl⟩⟩
        · exact absurd hagain (by simp)
    · exact absurd hagain (by simp)
    · rename_i hcomplete herror
      obtain rfl := Turn.again.inj hagain
      refine ⟨rfl, .inr ⟨?_, rfl⟩⟩
      rcases waiting_or_done result.parser with hw | hdone | hdone
      · exact hw
      · exact absurd hdone hcomplete
      · exact absurd hdone herror
  · exact absurd hagain (by simp)

/-! ## The turns of the loop -/

theorem turn_again {s s' : Session} (hinv : s.conn.inputBuffer.Inv)
    (hagain : turn ord world h r s = .again s') :
    s.conn.isConnected = true ∧ s.conn.inputBuffer.readable ≠ [] ∧ s'.conn.inputBuffer.Inv
      ∧ ∃ q : HttpParser,
          (HttpParser.consumer ord).run (s.parser, none) s.conn.inputBuffer.readable
            = ((q, none), s'.conn.inputBuffer.readable)
          ∧ (q.state = .kComplete ∧ q.keepAlive = true ∧ s'.parser = .new
            ∨ Waiting q ∧ s'.parser = q) := by
  have hagrees := HttpParser.parse_agrees ord (p := s.parser) hinv
  unfold turn at hagain
  split at hagain
  · rename_i hconn
    rw [awaitRead_eq hinv] at hagain
    by_cases hnil : s.conn.inputBuffer.readable = []
    · rw [if_pos hnil] at hagain
      exact absurd hagain (by simp)
    · rw [if_neg hnil] at hagain
      obtain ⟨hthrown, hbuf, hparser⟩ := afterParse_again hagain
      have hstate := hagrees.state_eq
      rw [hthrown] at hstate
      refine ⟨hconn, hnil, by rw [hbuf]; exact hagrees.inv, _, ?_, hparser⟩
      rw [hbuf, hagrees.readable_eq, hstate]
  · exact absurd hagain (by simp)

/-- A turn that ends with a parser that waits goes on. -/
theorem turn_waiting {s : Session} (hconn : s.conn.isConnected = true)
    (hinv : s.conn.inputBuffer.Inv) (hne : s.conn.inputBuffer.readable ≠ []) {q : HttpParser}
    {ys : Bytes} (hrun : (HttpParser.consumer ord).run (s.parser, none) s.conn.inputBuffer.readable
      = ((q, none), ys)) (hq : Waiting q) :
    ∃ s', turn ord world h r s = .again s' ∧ s'.parser = q ∧ s'.conn.isConnected = true
      ∧ s'.conn.inputBuffer.Inv ∧ s'.conn.inputBuffer.readable = ys := by
  have hagrees := HttpParser.parse_agrees ord (p := s.parser) hinv
  rw [hrun] at hagrees
  obtain ⟨hparser, hthrown⟩ := Prod.mk.inj hagrees.state_eq
  obtain ⟨hcomplete, herror⟩ := hq.not_done
  refine ⟨⟨q, { s.conn with inputBuffer := (s.parser.parse ord s.conn.inputBuffer).buf },
    s.served⟩, ?_, rfl, hconn, hagrees.inv, hagrees.readable_eq⟩
  rw [turn, if_pos hconn, awaitRead_eq hinv, if_neg hne]
  simp only [afterParse, hthrown, if_true, hparser]

/-- A turn that completes a request goes on, when the request is served at once and keeps the
connection alive. -/
theorem turn_complete {s : Session} (hconn : s.conn.isConnected = true)
    (hinv : s.conn.inputBuffer.Inv) (hne : s.conn.inputBuffer.readable ≠ []) {q : HttpParser}
    {ys : Bytes} (hrun : (HttpParser.consumer ord).run (s.parser, none) s.conn.inputBuffer.readable
      = ((q, none), ys)) (hcomplete : q.state = .kComplete) (hkeep : q.keepAlive = true) :
    ∃ s', turn ord (.calm _) h r s = .again s' ∧ s'.parser = .new ∧ s'.conn.isConnected = true
      ∧ s'.conn.inputBuffer.Inv ∧ s'.conn.inputBuffer.readable = ys := by
  have hagrees := HttpParser.parse_agrees ord (p := s.parser) hinv
  rw [hrun] at hagrees
  obtain ⟨hparser, hthrown⟩ := Prod.mk.inj hagrees.state_eq
  refine ⟨⟨.new, { s.conn with inputBuffer := (s.parser.parse ord s.conn.inputBuffer).buf },
    s.served + 1⟩, ?_, rfl, hconn, hagrees.inv, hagrees.readable_eq⟩
  rw [turn, if_pos hconn, awaitRead_eq hinv, if_neg hne]
  simp only [afterParse, hthrown, if_true, hparser, hcomplete, hkeep]
  rfl

/-- After its start line a fresh parser reads headers, or has failed. -/
theorem onLine_new (ord : IterOrder Bytes) (line : Bytes) :
    ∃ q : HttpParser, HttpParser.new.onLine ord line = (q, none)
      ∧ (q.state = .kError ∨ q.state = .kHeaders) := by
  have hstate : HttpParser.new.state = .kStartLine := rfl
  simp only [HttpParser.onLine, hstate]
  split
  · exact ⟨_, rfl, .inl rfl⟩
  · exact ⟨_, rfl, .inr rfl⟩

/-- A request that completes has consumed something, when the parser starts afresh. -/
theorem run_complete_lt {q : HttpParser} {xs ys : Bytes}
    (hrun : (HttpParser.consumer ord).run (.new, none) xs = ((q, none), ys))
    (hq : q.state = .kComplete) : ys.length < xs.length := by
  have hnew : HttpParser.new.ReadsLine := .inl rfl
  cases hadv : HttpParser.advance ord (.new, none) xs with
  | none =>
      rw [HttpParser.run_of_stuck hadv] at hrun
      obtain ⟨hnq, -⟩ := Prod.mk.inj hrun
      obtain ⟨rfl, -⟩ := Prod.mk.inj hnq
      exact absurd hq (by decide)
  | some next =>
      obtain ⟨s₁, zs⟩ := next
      rw [HttpParser.run_of_advance hadv] at hrun
      rw [HttpParser.advance_of_readsLine ord hnew] at hadv
      obtain ⟨crlf, hcrlf, heq⟩ := Option.map_eq_some_iff.mp hadv
      obtain ⟨rfl, hzs⟩ := Prod.mk.inj heq
      have hle := searchCrlf_le hcrlf
      obtain ⟨p₁, hline, herror | hheaders⟩ := onLine_new ord (xs.take crlf)
      · rw [hline, Consumer.run_of_final (HttpParser.final_of_error herror)] at hrun
        obtain ⟨hnq, -⟩ := Prod.mk.inj hrun
        obtain ⟨rfl, -⟩ := Prod.mk.inj hnq
        exact absurd (hq.symm.trans herror) (by decide)
      · have hne : ¬ p₁.state = .kError := by
          rw [hheaders]
          decide
        have hweight : (HttpParser.consumer ord).weight (p₁, none) = 1 :=
          HttpParser.weight_of_readsLine (.inr hheaders)
        have hmeasure := Consumer.run_measure_le (C := HttpParser.consumer ord) (p₁, none) zs
        rw [hline, if_neg hne] at hzs
        rw [← hline, hrun, hline, hweight, ← hzs, List.length_drop] at hmeasure
        simp only at hmeasure
        omega

/-! ## When the loop settles -/

/-- A session without unread bytes suspends, or leaves the loop. -/
theorem settles_of_drained {s : Session} (hinv : s.conn.inputBuffer.Inv)
    (hnil : s.conn.inputBuffer.readable = []) : Turn.Settles (turn ord world h r) s := by
  cases hturn : turn ord world h r s with
  | stop st => exact Turn.settles_of_stop hturn
  | again s' => exact absurd hnil (turn_again hinv hturn).2.1

/-- One turn of a session whose bytes do not end inside a line or a body either settles matters or
leads to a fresh parser with the same property and no more bytes. -/
theorem settles_of_next {s : Session} (hinv : s.conn.inputBuffer.Inv)
    (hends : ¬ EndsInside ord s.parser s.conn.inputBuffer.readable)
    (hnext : ∀ s' : Session, s'.conn.inputBuffer.Inv → s'.parser = .new →
      (∃ q : HttpParser, q.state = .kComplete
        ∧ (HttpParser.consumer ord).run (s.parser, none) s.conn.inputBuffer.readable
          = ((q, none), s'.conn.inputBuffer.readable)) →
      ¬ EndsInside ord .new s'.conn.inputBuffer.readable → Turn.Settles (turn ord world h r) s') :
    Turn.Settles (turn ord world h r) s := by
  cases hturn : turn ord world h r s with
  | stop st => exact Turn.settles_of_stop hturn
  | again s' =>
      obtain ⟨-, -, hinv', q, hrun, hq⟩ := turn_again hinv hturn
      apply Turn.settles_of_again hturn
      rcases hq with ⟨hcomplete, hkeep, hnew⟩ | ⟨hwaiting, -⟩
      · have hends' : ¬ EndsInside ord .new s'.conn.inputBuffer.readable := by
          intro hrest
          exact hends (.next hrun hcomplete hkeep hrest)
        exact hnext s' hinv' hnew ⟨q, hcomplete, hrun⟩ hends'
      · -- the parser waits: nothing may be left, or the bytes would end inside
        by_cases hnil : s'.conn.inputBuffer.readable = []
        · exact settles_of_drained hinv' hnil
        · have hstuck := Consumer.step_run (C := HttpParser.consumer ord) (s.parser, none)
            s.conn.inputBuffer.readable
          rw [hrun] at hstuck
          exact absurd (.inside hrun (inside_of_advance hwaiting hstuck) hnil) hends

theorem settles_of_new {s : Session} (hinv : s.conn.inputBuffer.Inv) (hnew : s.parser = .new)
    (hends : ¬ EndsInside ord .new s.conn.inputBuffer.readable) :
    Turn.Settles (turn ord world h r) s := by
  -- on the unread bytes, of which every complete request takes some
  induction hn : s.conn.inputBuffer.readable.length using Nat.strongRecOn generalizing s with
  | _ n ih =>
    apply settles_of_next hinv (by rw [hnew]; exact hends)
    rintro s' hinv' hnew' ⟨q, hcomplete, hrun⟩ hends'
    rw [hnew] at hrun
    have hlt := run_complete_lt hrun hcomplete
    exact ih _ (by omega) hinv' hnew' hends' rfl

/-- Inside a line or a body the loop spins, as long as the connection is there. -/
theorem not_settles_of_inside {s : Session} (hconn : s.conn.isConnected = true)
    (hinv : s.conn.inputBuffer.Inv) (hinside : Inside s.parser s.conn.inputBuffer.readable)
    (hne : s.conn.inputBuffer.readable ≠ []) : ¬ Turn.Settles (turn ord world h r) s := by
  let Spins : Session → Prop := fun s => s.conn.isConnected = true ∧ s.conn.inputBuffer.Inv
    ∧ Inside s.parser s.conn.inputBuffer.readable ∧ s.conn.inputBuffer.readable ≠ []
  have hstep : ∀ s, Spins s → ∃ s', turn ord world h r s = .again s' ∧ Spins s' := by
    rintro s ⟨hconn, hinv, hinside, hne⟩
    obtain ⟨s', hturn, hparser, hconn', hinv', hread⟩ := turn_waiting hconn hinv hne
      (HttpParser.run_of_stuck (advance_of_inside hinside)) hinside.waiting
    exact ⟨s', hturn, hconn', hinv', by rw [hparser, hread]; exact hinside, by rw [hread]; exact hne⟩
  exact Turn.not_settles hstep ⟨hconn, hinv, hinside, hne⟩

/-- Bytes that end inside a line or a body make the loop spin. -/
theorem not_settles_of_endsInside {p : HttpParser} {xs : Bytes} (hends : EndsInside ord p xs)
    {s : Session} (hconn : s.conn.isConnected = true) (hinv : s.conn.inputBuffer.Inv)
    (hp : s.parser = p) (hxs : s.conn.inputBuffer.readable = xs) :
    ¬ Turn.Settles (turn ord (.calm _) h r) s := by
  -- along the complete requests, up to the one that is cut off
  induction hends generalizing s with
  | @inside p q xs ys hrun hinside hys =>
      have hne : s.conn.inputBuffer.readable ≠ [] := by
        rw [hxs]
        exact (EndsInside.inside hrun hinside hys).ne_nil
      subst hp hxs
      obtain ⟨s', hturn, hparser, hconn', hinv', hread⟩ :=
        turn_waiting hconn hinv hne hrun hinside.waiting
      rw [Turn.settles_iff_of_again hturn]
      exact not_settles_of_inside hconn' hinv' (by rw [hparser, hread]; exact hinside)
        (by rw [hread]; exact hys)
  | @next p q xs ys hrun hcomplete hkeep hrest ih =>
      have hne : s.conn.inputBuffer.readable ≠ [] := by
        rw [hxs]
        exact (EndsInside.next hrun hcomplete hkeep hrest).ne_nil
      subst hp hxs
      obtain ⟨s', hturn, hparser, hconn', hinv', hread⟩ :=
        turn_complete hconn hinv hne hrun hcomplete hkeep
      rw [Turn.settles_iff_of_again hturn]
      exact ih hconn' hinv' hparser hread

/-- **The HTTP loop settles, whatever happens around it, exactly when the received bytes do not end
inside a line or a body** (or the connection is gone). -/
theorem settles_iff {s : Session} (hinv : s.conn.inputBuffer.Inv) :
    (∀ world, Turn.Settles (turn ord world h r) s)
      ↔ (s.conn.isConnected = true → ¬ EndsInside ord s.parser s.conn.inputBuffer.readable) := by
  constructor
  · intro hsettles hconn hends
    exact not_settles_of_endsInside hends hconn hinv rfl rfl (hsettles (.calm _))
  · intro hends world
    by_cases hconn : s.conn.isConnected = true
    · apply settles_of_next hinv (hends hconn)
      intro s' hinv' hnew _ hrest
      exact settles_of_new hinv' hnew hrest
    · have hstop : turn ord world h r s = .stop (.finished s.conn.shutdown) := by
        rw [turn, if_neg hconn]
      exact Turn.settles_of_stop hstop

end HttpServer

end LightNet.Http
