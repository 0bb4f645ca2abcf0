/-
# LightNet.Http.ParserQueue — the parser as a consumer of the byte stream.

`advance` says what one turn of the loop in `parse` does to the *bytes* that are unread: it takes a
whole line, or the whole body, or waits.  This is an incremental `Consumer`: a line that is complete
stays the same line when more bytes arrive.  `parse_agrees` is the refinement: on a buffer in order, a
call of the real `parse` ends in the parser, the exception and the unread bytes of the consumer's run.
-/
import LightNet.Core.BufferQueue
import LightNet.Foundation.Consumer
import LightNet.Http.Parser

namespace LightNet.Http

open LightNet.Foundation LightNet.Core
open Buffer (searchCrlf)

/-! ## The first CRLF -/

theorem searchCrlf_le {xs : Bytes} {i : Nat} (h : searchCrlf xs = some i) : i + 2 ≤ xs.length := by
  induction xs generalizing i with
  | nil => exact absurd h (by simp [searchCrlf])
  | cons c rest ih =>
      rw [searchCrlf] at h
      split at h
      · rename_i hc
        obtain rfl := Option.some.inj h
        obtain ⟨-, hhead⟩ := hc
        cases rest with
        | nil => exact absurd hhead (by simp)
        | cons d rest => simp
      · obtain ⟨j, hj, rfl⟩ := Option.map_eq_some_iff.mp h
        have := ih hj
        simp only [List.length_cons]
        omega

/-- A CRLF that is there stays the first one when bytes are appended. -/
theorem searchCrlf_append {xs : Bytes} {i : Nat} (h : searchCrlf xs = some i) (zs : Bytes) :
    searchCrlf (xs ++ zs) = some i := by
  induction xs generalizing i with
  | nil => exact absurd h (by simp [searchCrlf])
  | cons c rest ih =>
      rw [searchCrlf] at h
      rw [List.cons_append, searchCrlf]
      split at h
      · rename_i hc
        obtain ⟨hc13, hhead⟩ := hc
        cases rest with
        | nil => exact absurd hhead (by simp)
        | cons d rest =>
            rw [if_pos ⟨hc13, by simpa using hhead⟩]
            exact h
      · rename_i hc
        obtain ⟨j, hj, rfl⟩ := Option.map_eq_some_iff.mp h
        have hne : ¬ (c = 13 ∧ (rest ++ zs).head? = some 10) := by
          rintro ⟨hc13, hhead⟩
          cases rest with
          | nil => exact absurd hj (by simp [searchCrlf])
          | cons d rest => exact hc ⟨hc13, by simpa using hhead⟩
        rw [if_neg hne, ih hj]
        rfl

/-- A line without CR ends at the CRLF that follows it. -/
theorem searchCrlf_line {line : Bytes} (hline : 13 ∉ line) (tail : Bytes) :
    searchCrlf (line ++ 13 :: 10 :: tail) = some line.length := by
  induction line with
  | nil => simp [searchCrlf]
  | cons c rest ih =>
      have hc : c ≠ 13 := by
        rintro rfl
        exact hline List.mem_cons_self
      have hrest : 13 ∉ rest := by
        intro h
        exact hline (List.mem_cons_of_mem _ h)
      rw [List.cons_append, searchCrlf, if_neg (fun h => hc h.1), ih hrest]
      rfl

/-! ## One turn of the loop, on bytes -/

/-- The parser together with the exception that stopped it, if one did. -/
abbrev ParserState := HttpParser × Option StdError

namespace HttpParser

/-- What a whole line does to the parser. -/
def onLine (ord : IterOrder Bytes) (p : HttpParser) (line : Bytes) : ParserState :=
  match p.state with
  | .kStartLine =>
      match p.parseStartLine line with
      | (false, p) => ({ p with state := .kError }, none)
      | (true, p) => ({ p with state := .kHeaders }, none)
  | .kHeaders =>
      if line = [] then
        let cl := p.request.getHeader ord kContentLength
        if cl = [] then ({ p with state := .kComplete }, none)
        else
          match stoul cl with
          | .error e => (p, some e)
          | .ok n => ({ p with contentLength := n, state := .kBody }, none)
      else
        match p.parseHeaderLine line with
        | (false, p) => ({ p with state := .kError }, none)
        | (true, p) => (p, none)
  | _ => (p, none)

/-- The body has arrived. -/
def onBody (p : HttpParser) (body : Bytes) : HttpParser :=
  { p with request := { p.request with body }, state := .kComplete }

/-- One turn of the loop on the unread bytes.  A line that is refused is not consumed. -/
def advance (ord : IterOrder Bytes) : ParserState → Bytes → Option (ParserState × Bytes)
  | (_, some _), _ => none
  | (p, none), xs =>
      match p.state with
      | .kComplete | .kError => none
      | .kStartLine | .kHeaders =>
          (searchCrlf xs).map fun crlf =>
            let s := p.onLine ord (xs.take crlf)
            (s, if s.1.state = .kError then xs else xs.drop (crlf + 2))
      | .kBody =>
          if xs.length < p.contentLength then none
          else some ((p.onBody (xs.take p.contentLength), none), xs.drop p.contentLength)

/-- How far a parser is from being done, beside the bytes it still needs. -/
def weight : ParserState → Nat
  | (_, some _) => 0
  | (p, none) =>
      match p.state with
      | .kStartLine | .kHeaders => 1
      | .kBody => 2
      | .kComplete | .kError => 0

theorem weight_le (s : ParserState) : weight s ≤ 2 := by
  obtain ⟨p, _ | e⟩ := s
  · cases h : p.state <;> simp [weight, h]
  · simp [weight]

theorem weight_of_error {s : ParserState} (h : s.1.state = .kError) : weight s = 0 := by
  obtain ⟨p, _ | e⟩ := s
  · simp only at h
    simp [weight, h]
  · rfl

/-! ## What a turn needs -/

/-- The states in which `parse` works line by line. -/
def ReadsLine (p : HttpParser) : Prop := p.state = .kStartLine ∨ p.state = .kHeaders

theorem weight_of_readsLine {p : HttpParser} (h : p.ReadsLine) : weight (p, none) = 1 := by
  rcases h with h | h <;> simp [weight, h]

theorem advance_of_readsLine (ord : IterOrder Bytes) {p : HttpParser} (h : p.ReadsLine)
    (xs : Bytes) :
    advance ord (p, none) xs = (searchCrlf xs).map fun crlf =>
      (p.onLine ord (xs.take crlf),
        if (p.onLine ord (xs.take crlf)).1.state = .kError then xs else xs.drop (crlf + 2)) := by
  rcases h with h | h <;> simp [advance, h]

theorem advance_of_body {ord : IterOrder Bytes} {p : HttpParser} (h : p.state = .kBody)
    (xs : Bytes) :
    advance ord (p, none) xs = if xs.length < p.contentLength then none
      else some ((p.onBody (xs.take p.contentLength), none), xs.drop p.contentLength) := by
  simp [advance, h]

/-- The three kinds of turn: a line, a body, or nothing to do. -/
theorem state_cases (s : ParserState) :
    (∃ p, s = (p, none) ∧ p.ReadsLine) ∨ (∃ p, s = (p, none) ∧ p.state = .kBody)
      ∨ ∀ ord xs, advance ord s xs = none := by
  obtain ⟨p, _ | e⟩ := s
  · cases h : p.state with
    | kStartLine => exact .inl ⟨p, rfl, .inl h⟩
    | kHeaders => exact .inl ⟨p, rfl, .inr h⟩
    | kBody => exact .inr (.inl ⟨p, rfl, h⟩)
    | kComplete => exact .inr (.inr fun ord xs => by simp [advance, h])
    | kError => exact .inr (.inr fun ord xs => by simp [advance, h])
  · exact .inr (.inr fun ord xs => rfl)

theorem advance_append {ord : IterOrder Bytes} {s s' : ParserState} {xs ys : Bytes}
    (h : advance ord s xs = some (s', ys)) (zs : Bytes) :
    advance ord s (xs ++ zs) = some (s', ys ++ zs) := by
  rcases state_cases s with ⟨p, rfl, hp⟩ | ⟨p, rfl, hp⟩ | hnone
  · rw [advance_of_readsLine ord hp] at h ⊢
    obtain ⟨crlf, hcrlf, heq⟩ := Option.map_eq_some_iff.mp h
    have hle := searchCrlf_le hcrlf
    rw [searchCrlf_append hcrlf zs, Option.map_some, List.take_append_of_le_length (by omega),
      List.drop_append_of_le_length hle]
    obtain ⟨rfl, rfl⟩ := Prod.mk.inj heq
    split <;> rfl
  · rw [advance_of_body hp] at h ⊢
    split at h
    · exact absurd h (by simp)
    · rename_i hlen
      obtain ⟨rfl, rfl⟩ := Prod.mk.inj (Option.some.inj h)
      rw [if_neg (by rw [List.length_append]; omega), List.take_append_of_le_length (by omega),
        List.drop_append_of_le_length (by omega)]
  · exact absurd h (by simp [hnone])

theorem advance_lt {ord : IterOrder Bytes} {s s' : ParserState} {xs ys : Bytes}
    (h : advance ord s xs = some (s', ys)) : ys.length + weight s' < xs.length + weight s := by
  rcases state_cases s with ⟨p, rfl, hp⟩ | ⟨p, rfl, hp⟩ | hnone
  · rw [advance_of_readsLine ord hp] at h
    obtain ⟨crlf, hcrlf, heq⟩ := Option.map_eq_some_iff.mp h
    have hle := searchCrlf_le hcrlf
    obtain ⟨rfl, rfl⟩ := Prod.mk.inj heq
    rw [weight_of_readsLine hp]
    split
    · -- a refused line stays unread: only the weight drops
      rename_i herr
      rw [weight_of_error herr]
      omega
    · have := weight_le (p.onLine ord (xs.take crlf))
      rw [List.length_drop]
      omega
  · rw [advance_of_body hp] at h
    split at h
    · exact absurd h (by simp)
    · obtain ⟨rfl, rfl⟩ := Prod.mk.inj (Option.some.inj h)
      simp only [weight, onBody, hp, List.length_drop]
      omega
  · exact absurd h (by simp [hnone])

/-- **The parser is an incremental consumer of bytes.** -/
def consumer (ord : IterOrder Bytes) : Consumer ParserState UInt8 where
  step := advance ord
  weight := weight
  step_append := advance_append
  step_lt := advance_lt

theorem run_of_stuck {ord : IterOrder Bytes} {s : ParserState} {xs : Bytes}
    (h : advance ord s xs = none) : (consumer ord).run s xs = (s, xs) := by
  have hstep : (consumer ord).step s xs = none := h
  exact Consumer.run_of_none hstep

theorem run_of_advance {ord : IterOrder Bytes} {s s' : ParserState} {xs ys : Bytes}
    (h : advance ord s xs = some (s', ys)) : (consumer ord).run s xs = (consumer ord).run s' ys := by
  have hstep : (consumer ord).step s xs = some (s', ys) := h
  exact Consumer.run_of_some hstep

/-! ## The refinement -/

/-- What a call of `parse` on the buffer must agree with: a state and the bytes left unread. -/
structure Agrees (buf : Buffer) (r : ParseResult) (out : ParserState × Bytes) : Prop where
  inv : r.buf.Inv
  state_eq : (r.parser, r.thrown) = out.1
  readable_eq : r.buf.readable = out.2
  writer_le : r.buf.writerIndex ≤ buf.writerIndex

theorem Agrees.mono {buf buf' : Buffer} {r : ParseResult} {out : ParserState × Bytes}
    (h : Agrees buf r out) (hle : buf.writerIndex ≤ buf'.writerIndex) : Agrees buf' r out :=
  ⟨h.inv, h.state_eq, h.readable_eq, le_trans h.writer_le hle⟩

theorem final_of_error {ord : IterOrder Bytes} {p : HttpParser} (h : p.state = .kError) :
    (consumer ord).Final (p, none) := by
  intro xs
  show advance ord (p, none) xs = none
  simp [advance, h]

theorem final_of_complete {ord : IterOrder Bytes} {p : HttpParser} (h : p.state = .kComplete) :
    (consumer ord).Final (p, none) := by
  intro xs
  show advance ord (p, none) xs = none
  simp [advance, h]

theorem final_of_thrown (ord : IterOrder Bytes) (p : HttpParser) (e : StdError) :
    (consumer ord).Final (p, some e) := fun _ => rfl

/-- A header line changes the request and `keep_alive_`, not the state. -/
theorem parseHeaderLine_state (p : HttpParser) (line : Bytes) :
    (p.parseHeaderLine line).2.state = p.state := by
  unfold parseHeaderLine
  split
  · rfl
  · simp only
    split <;> rfl

/-! ## One turn of the source -/

/-- What one turn of the loop does on the buffer, next to what `advance` does on its bytes. -/
inductive LoopTurn (ord : IterOrder Bytes) (fuel : Nat) (p : HttpParser) (buf : Buffer) : Prop
  /-- Both wait. -/
  | stuck (hadv : advance ord (p, none) buf.readable = none)
      (hloop : parseLoop ord (fuel + 1) p buf = ⟨p, buf, none⟩)
  /-- Both take one last step. -/
  | last (s : ParserState) (buf' : Buffer) (hinv : buf'.Inv)
      (hle : buf'.writerIndex ≤ buf.writerIndex) (hfinal : (consumer ord).Final s)
      (hadv : advance ord (p, none) buf.readable = some (s, buf'.readable))
      (hloop : parseLoop ord (fuel + 1) p buf = ⟨s.1, buf', s.2⟩)
  /-- Both go on. -/
  | next (q : HttpParser) (buf' : Buffer) (hinv : buf'.Inv)
      (hle : buf'.writerIndex ≤ buf.writerIndex)
      (hadv : advance ord (p, none) buf.readable = some ((q, none), buf'.readable))
      (hloop : parseLoop ord (fuel + 1) p buf = parseLoop ord fuel q buf')

section Turns

variable {ord : IterOrder Bytes} {fuel : Nat} {p : HttpParser} {buf : Buffer}

/-- A turn that goes on behind the bytes it has retrieved. -/
theorem LoopTurn.retrieve (hinv : buf.Inv) {q : HttpParser} {n : Nat}
    (hadv : advance ord (p, none) buf.readable = some ((q, none), buf.readable.drop n))
    (hloop : parseLoop ord (fuel + 1) p buf = parseLoop ord fuel q (buf.retrieve n)) :
    LoopTurn ord fuel p buf := by
  apply LoopTurn.next q (buf.retrieve n) (Buffer.retrieve_inv hinv n)
    (Buffer.retrieve_writerIndex_le hinv n) _ hloop
  rw [hadv, Buffer.retrieve_readable hinv]

/-- A turn that refuses the line and leaves it unread. -/
theorem LoopTurn.refuse (hinv : buf.Inv) {q : HttpParser} (hq : q.state = .kError)
    (hadv : advance ord (p, none) buf.readable = some ((q, none), buf.readable))
    (hloop : parseLoop ord (fuel + 1) p buf = ⟨q, buf, none⟩) : LoopTurn ord fuel p buf :=
  .last (q, none) buf hinv (le_refl _) (final_of_error hq) hadv hloop

theorem turn_startLine (hinv : buf.Inv) (hs : p.state = .kStartLine) : LoopTurn ord fuel p buf := by
  have hadv := advance_of_readsLine ord (.inl hs) buf.readable
  cases hcrlf : searchCrlf buf.readable with
  | none =>
      rw [hcrlf] at hadv
      exact .stuck hadv (by simp only [parseLoop, hs, Buffer.findCrlf, hcrlf])
  | some crlf =>
      have hle := searchCrlf_le hcrlf
      have hpeek := hinv.peek_eq (show crlf ≤ buf.readable.length by omega)
      simp only [hcrlf, Option.map_some, onLine, hs] at hadv
      rcases hline : p.parseStartLine (buf.readable.take crlf) with ⟨_ | _, q⟩
      · -- refused: the line stays in the buffer
        rw [hline] at hadv
        apply LoopTurn.refuse hinv rfl hadv
        simp only [parseLoop, hs, Buffer.findCrlf, hcrlf, hpeek, hline]
      · rw [hline] at hadv
        apply LoopTurn.retrieve hinv hadv
        simp only [parseLoop, hs, Buffer.findCrlf, hcrlf, hpeek, hline]

/-- The blank line: no body, a body, or a length that `stoul` throws on. -/
theorem turn_blank (hinv : buf.Inv) (hs : p.state = .kHeaders)
    (hcrlf : searchCrlf buf.readable = some 0) : LoopTurn ord fuel p buf := by
  have hadv := advance_of_readsLine ord (.inr hs) buf.readable
  simp only [hcrlf, Option.map_some, onLine, hs, List.take_zero, if_true] at hadv
  by_cases hcl : p.request.getHeader ord kContentLength = []
  · rw [if_pos hcl] at hadv
    apply LoopTurn.retrieve hinv hadv
    simp only [parseLoop, hs, Buffer.findCrlf, hcrlf, if_pos hcl]
  · rw [if_neg hcl] at hadv
    cases hlen : stoul (p.request.getHeader ord kContentLength) with
    | ok n =>
        rw [hlen] at hadv
        apply LoopTurn.retrieve hinv hadv
        simp only [parseLoop, hs, Buffer.findCrlf, hcrlf, if_neg hcl, hlen]
    | error e =>
        -- the exception leaves the blank line consumed
        simp only [hlen, hs, reduceCtorEq, if_false] at hadv
        apply LoopTurn.last (p, some e) (buf.retrieve 2) (Buffer.retrieve_inv hinv 2)
          (Buffer.retrieve_writerIndex_le hinv 2) (final_of_thrown ord p e)
        · rw [hadv, Buffer.retrieve_readable hinv]
        · simp only [parseLoop, hs, Buffer.findCrlf, hcrlf, if_neg hcl, hlen]

theorem turn_headerLine (hinv : buf.Inv) (hs : p.state = .kHeaders) {i : Nat}
    (hcrlf : searchCrlf buf.readable = some (i + 1)) : LoopTurn ord fuel p buf := by
  have hle := searchCrlf_le hcrlf
  have hpeek := hinv.peek_eq (show i + 1 ≤ buf.readable.length by omega)
  have hne : buf.readable.take (i + 1) ≠ [] := by
    rw [ne_eq, List.take_eq_nil_iff, not_or]
    exact ⟨Nat.succ_ne_zero i, List.ne_nil_of_length_pos (by omega)⟩
  have hadv := advance_of_readsLine ord (.inr hs) buf.readable
  simp only [hcrlf, Option.map_some, onLine, hs, hne, if_false] at hadv
  have hstate := parseHeaderLine_state p (buf.readable.take (i + 1))
  rcases hline : p.parseHeaderLine (buf.readable.take (i + 1)) with ⟨_ | _, q⟩
  · rw [hline] at hadv
    apply LoopTurn.refuse hinv rfl hadv
    simp only [parseLoop, hs, Buffer.findCrlf, hcrlf, hpeek, hline]
  · rw [hline] at hadv hstate
    have hq : q.state ≠ .kError := by
      rw [show q.state = p.state from hstate, hs]
      decide
    rw [if_neg hq] at hadv
    apply LoopTurn.retrieve hinv hadv
    simp only [parseLoop, hs, Buffer.findCrlf, hcrlf, hpeek, hline]

theorem turn_body (hinv : buf.Inv) (hs : p.state = .kBody) : LoopTurn ord fuel p buf := by
  have hadv := @advance_of_body ord p hs buf.readable
  by_cases hlt : buf.readable.length < p.contentLength
  · rw [if_pos hlt] at hadv
    apply LoopTurn.stuck hadv
    simp only [parseLoop, hs, hinv.readableBytes_eq_length, if_pos hlt]
  · rw [if_neg hlt] at hadv
    apply LoopTurn.retrieve hinv hadv
    simp only [parseLoop, hs, hinv.readableBytes_eq_length, if_neg hlt, Buffer.retrieveAsString_snd,
      Buffer.retrieveAsString_fst hinv, onBody]

/-- **One turn of the loop is one step of the consumer.** -/
theorem loopTurn (ord : IterOrder Bytes) (fuel : Nat) (p : HttpParser) (hinv : buf.Inv) :
    LoopTurn ord fuel p buf := by
  cases hs : p.state with
  | kStartLine => exact turn_startLine hinv hs
  | kHeaders =>
      cases hcrlf : searchCrlf buf.readable with
      | none =>
          apply LoopTurn.stuck
          · rw [advance_of_readsLine ord (.inr hs), hcrlf, Option.map_none]
          · simp only [parseLoop, hs, Buffer.findCrlf, hcrlf]
      | some crlf =>
          cases crlf with
          | zero => exact turn_blank hinv hs hcrlf
          | succ i => exact turn_headerLine hinv hs hcrlf
  | kBody => exact turn_body hinv hs
  | kComplete => exact .stuck (by simp [advance, hs]) (by simp only [parseLoop, hs])
  | kError => exact .stuck (by simp [advance, hs]) (by simp only [parseLoop, hs])

end Turns

/-! ## The whole loop -/

/-- **The refinement.** With enough fuel the loop of `parse` ends as the consumer's run does. -/
theorem parseLoop_agrees (ord : IterOrder Bytes) {fuel : Nat} {p : HttpParser} {buf : Buffer}
    (hinv : buf.Inv) (hfuel : buf.readable.length + weight (p, none) ≤ fuel) :
    Agrees buf (parseLoop ord fuel p buf) ((consumer ord).run (p, none) buf.readable) := by
  induction fuel generalizing p buf with
  | zero =>
      -- no fuel is needed only where there is nothing to do
      have hweight : weight (p, none) = 0 := by omega
      have hstuck : advance ord (p, none) buf.readable = none := by
        cases hs : p.state <;> simp [weight, advance, hs] at hweight ⊢
      rw [run_of_stuck hstuck]
      exact ⟨hinv, rfl, rfl, le_refl _⟩
  | succ fuel ih =>
      cases loopTurn ord fuel p hinv with
      | stuck hadv hloop =>
          rw [run_of_stuck hadv, hloop]
          exact ⟨hinv, rfl, rfl, le_refl _⟩
      | last s buf' hinv' hle hfinal hadv hloop =>
          rw [run_of_advance hadv, Consumer.run_of_final hfinal, hloop]
          exact ⟨hinv', rfl, rfl, hle⟩
      | next q buf' hinv' hle hadv hloop =>
          have hlt := advance_lt hadv
          rw [run_of_advance hadv, hloop]
          exact (ih hinv' (by omega)).mono hle

/-- **A call of `parse` is a run of the consumer** on the readable bytes. -/
theorem parse_agrees (ord : IterOrder Bytes) {p : HttpParser} {buf : Buffer} (hinv : buf.Inv) :
    Agrees buf (parse ord p buf) ((consumer ord).run (p, none) buf.readable) := by
  apply parseLoop_agrees ord hinv
  rw [hinv.readableBytes_eq_length]
  exact Nat.add_le_add_left (weight_le _) _

end HttpParser

end LightNet.Http
