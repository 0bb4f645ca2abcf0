/-
# LightNet.Http.Exchanges — the requests of a stream on one connection.

A connection puts one request behind the other through the same parser: a request that is complete is
taken out, and the parser is reset if the connection is kept alive.  `exchanges` is this as a consumer
of the stream on top of the parser's own, so what a stream asks for (`requestsOf`) does not depend on
how it is cut, and what a part of it asks for comes first.
-/
import LightNet.Http.Server

namespace LightNet.Http

open LightNet.Foundation

/-- Where a stream has got to: the parser, the requests taken out of it, and whether the last of them
closes the connection. -/
structure Exchanges where
  parser : ParserState := (.new, none)
  requests : List HttpRequest := []
  closing : Bool := false

namespace Exchanges

/-- Take out the request that is complete. -/
def complete (s : Exchanges) (p : HttpParser) : Exchanges where
  parser := if p.keepAlive then (p.reset, none) else (p, none)
  requests := s.requests ++ [p.request]
  closing := !p.keepAlive

/-- One turn of the parser, or a request that is taken out. -/
def advance (ord : IterOrder Bytes) (s : Exchanges) (xs : Bytes) : Option (Exchanges × Bytes) :=
  if s.closing then none
  else
    match s.parser with
    | (_, some _) => none
    | (p, none) =>
        if p.state = .kComplete then some (s.complete p, xs)
        else (HttpParser.advance ord (p, none) xs).map fun r => ({ s with parser := r.1 }, r.2)

/-- How far the parser is from the next start line, beside the bytes it still needs. -/
def turnsLeft : ParserState → Nat
  | (_, some _) => 0
  | (p, none) =>
      match p.state with
      | .kStartLine => 1
      | .kHeaders => 2
      | .kBody => 3
      | .kComplete => 2
      | .kError => 0

/-- The same for the exchanges, of which there are no more once the connection closes. -/
def weight (s : Exchanges) : Nat := if s.closing then 0 else turnsLeft s.parser

variable {ord : IterOrder Bytes}

/-! ## Every turn takes something -/

theorem turnsLeft_le (s : ParserState) : turnsLeft s ≤ 3 := by
  obtain ⟨p, _ | e⟩ := s
  · cases h : p.state <;> simp [turnsLeft, h]
  · simp [turnsLeft]

theorem turnsLeft_of_error {s : ParserState} (h : s.1.state = .kError) : turnsLeft s = 0 := by
  obtain ⟨p, _ | e⟩ := s
  · simp [turnsLeft, show p.state = .kError from h]
  · rfl

/-- Behind a start line there are headers, or nothing. -/
theorem turnsLeft_onLine {p : HttpParser} (h : p.state = .kStartLine) (line : Bytes) :
    turnsLeft (p.onLine ord line) ≤ 2 := by
  simp only [HttpParser.onLine, h]
  split <;> simp [turnsLeft]

/-- Every turn of the parser brings the next start line closer. -/
theorem turnsLeft_advance {s s' : ParserState} {xs ys : Bytes}
    (h : HttpParser.advance ord s xs = some (s', ys)) :
    ys.length + turnsLeft s' < xs.length + turnsLeft s := by
  rcases HttpParser.state_cases s with ⟨p, rfl, hp⟩ | ⟨p, rfl, hp⟩ | hnone
  · rw [HttpParser.advance_of_readsLine ord hp] at h
    obtain ⟨crlf, hcrlf, heq⟩ := Option.map_eq_some_iff.mp h
    have hle := searchCrlf_le hcrlf
    have hall := turnsLeft_le (p.onLine ord (xs.take crlf))
    obtain ⟨rfl, rfl⟩ := Prod.mk.inj heq
    have hpos : 0 < turnsLeft (p, none) := by
      rcases hp with hp | hp <;> simp [turnsLeft, hp]
    split
    · -- a refused line stays unread, and nothing is left to do
      rename_i herror
      have hzero := turnsLeft_of_error herror
      omega
    · rw [List.length_drop]
      rcases hp with hp | hp
      · have hstart := @turnsLeft_onLine ord _ hp (xs.take crlf)
        omega
      · have hheaders : turnsLeft (p, none) = 2 := by simp [turnsLeft, hp]
        omega
  · rw [HttpParser.advance_of_body hp] at h
    split at h
    · exact absurd h nofun
    · obtain ⟨rfl, rfl⟩ := Prod.mk.inj (Option.some.inj h)
      simp only [turnsLeft, HttpParser.onBody, hp, List.length_drop]
      omega
  · exact absurd h (by simp [hnone])

theorem advance_of_complete {s : Exchanges} {p : HttpParser} (hopen : s.closing = false)
    (hparser : s.parser = (p, none)) (hp : p.state = .kComplete) (xs : Bytes) :
    s.advance ord xs = some (s.complete p, xs) := by
  simp only [advance, hopen, hparser, hp, Bool.false_eq_true, if_false, if_true]

theorem advance_of_incomplete {s : Exchanges} (hopen : s.closing = false)
    (hp : s.parser.1.state ≠ .kComplete) (xs : Bytes) :
    s.advance ord xs
      = (HttpParser.advance ord s.parser xs).map fun r => ({ s with parser := r.1 }, r.2) := by
  obtain ⟨⟨p, _ | e⟩, requests, closing⟩ := s
  · simp only at hopen hp
    simp only [advance, hopen, hp, Bool.false_eq_true, if_false]
  · simp only at hopen
    simp only [advance, hopen, Bool.false_eq_true, if_false]
    rfl

/-- The steps: a request is taken out, or the parser takes a turn. -/
theorem advance_cases {s s' : Exchanges} {xs ys : Bytes} (h : s.advance ord xs = some (s', ys)) :
    s.closing = false
      ∧ ((∃ p, s.parser = (p, none) ∧ p.state = .kComplete ∧ s' = s.complete p ∧ ys = xs)
        ∨ (s.parser.1.state ≠ .kComplete ∧ ∃ parser',
            HttpParser.advance ord s.parser xs = some (parser', ys)
              ∧ s' = { s with parser := parser' })) := by
  have hopen : s.closing = false := by
    by_contra hclosing
    rw [Bool.not_eq_false] at hclosing
    simp only [advance, hclosing, if_true] at h
    exact absurd h nofun
  refine ⟨hopen, ?_⟩
  by_cases hp : s.parser.1.state = .kComplete
  · rcases hparser : s.parser with ⟨p, _ | e⟩
    · rw [advance_of_complete hopen hparser (by rw [hparser] at hp; exact hp)] at h
      obtain ⟨rfl, rfl⟩ := Prod.mk.inj (Option.some.inj h)
      exact .inl ⟨p, rfl, by rw [hparser] at hp; exact hp, rfl, rfl⟩
    · simp only [advance, hopen, hparser, Bool.false_eq_true, if_false] at h
      exact absurd h nofun
  · rw [advance_of_incomplete hopen hp] at h
    obtain ⟨⟨parser', zs⟩, hadv, heq⟩ := Option.map_eq_some_iff.mp h
    obtain ⟨rfl, rfl⟩ := Prod.mk.inj heq
    exact .inr ⟨hp, parser', hadv, rfl⟩

theorem advance_append {s s' : Exchanges} {xs ys : Bytes} (h : s.advance ord xs = some (s', ys))
    (zs : Bytes) : s.advance ord (xs ++ zs) = some (s', ys ++ zs) := by
  obtain ⟨hopen, ⟨p, hparser, hp, rfl, rfl⟩ | ⟨hp, parser', hadv, rfl⟩⟩ := advance_cases h
  · exact advance_of_complete hopen hparser hp _
  · rw [advance_of_incomplete hopen hp, HttpParser.advance_append hadv zs, Option.map_some]

theorem advance_lt {s s' : Exchanges} {xs ys : Bytes} (h : s.advance ord xs = some (s', ys)) :
    ys.length + weight s' < xs.length + weight s := by
  obtain ⟨hopen, ⟨p, hparser, hp, rfl, rfl⟩ | ⟨hp, parser', hadv, rfl⟩⟩ := advance_cases h
  · have hbefore : weight s = 2 := by
      simp [weight, hopen, hparser, turnsLeft, hp]
    have hafter : weight (s.complete p) ≤ 1 := by
      by_cases hkeep : p.keepAlive = true
      · simp [weight, complete, hkeep, HttpParser.reset, turnsLeft]
      · simp [weight, complete, hkeep]
    omega
  · have hless := turnsLeft_advance hadv
    simp only [weight, hopen, Bool.false_eq_true, if_false]
    exact hless

/-- **A stream of requests is consumed incrementally.** -/
def consumer (ord : IterOrder Bytes) : Consumer Exchanges UInt8 where
  step := advance ord
  weight := weight
  step_append := advance_append
  step_lt := advance_lt

end Exchanges

/-! ## The requests of a stream -/

/-- The requests of a stream, up to the first that closes the connection or does not parse. -/
def requestsOf (ord : IterOrder Bytes) (xs : Bytes) : List HttpRequest :=
  ((Exchanges.consumer ord).run {} xs).1.requests

namespace Exchanges

variable {ord : IterOrder Bytes}

/-- Requests that have been taken out stay. -/
theorem requests_mono (s : Exchanges) (xs : Bytes) :
    s.requests <+: ((consumer ord).run s xs).1.requests := by
  induction s, xs using Consumer.run_induction (C := consumer ord) with
  | stuck s xs h =>
      have hsame : ((consumer ord).run s xs).1.requests = s.requests := by rw [Consumer.run_of_none h]
      exact hsame ▸ List.prefix_refl _
  | next s xs s' ys h ih =>
      rw [Consumer.run_of_some h]
      refine List.IsPrefix.trans ?_ ih
      obtain ⟨-, ⟨p, -, -, rfl, -⟩ | ⟨-, parser', -, rfl⟩⟩ := advance_cases h
      · exact List.prefix_append _ _
      · exact List.prefix_refl _

/-- The parser's own run comes first. -/
theorem run_parsing (s : Exchanges) (hopen : s.closing = false) (xs : Bytes) :
    (consumer ord).run s xs
      = (consumer ord).run { s with parser := ((HttpParser.consumer ord).run s.parser xs).1 }
          ((HttpParser.consumer ord).run s.parser xs).2 := by
  have hstep : ∀ (parser : ParserState) (xs : Bytes) (parser' : ParserState) (ys : Bytes),
      (HttpParser.consumer ord).step parser xs = some (parser', ys) →
        (consumer ord).step { s with parser } xs = some ({ s with parser := parser' }, ys) := by
    intro parser xs parser' ys hadv
    have hp : parser.1.state ≠ .kComplete := by
      intro hcomplete
      obtain ⟨p, _ | e⟩ := parser
      · exact absurd hadv (by rw [HttpParser.final_of_complete hcomplete]; exact nofun)
      · exact absurd hadv nofun
    have hadv' : HttpParser.advance ord parser xs = some (parser', ys) := hadv
    show advance ord { s with parser } xs = _
    rw [advance_of_incomplete (s := { s with parser }) hopen hp, hadv', Option.map_some]
  exact Consumer.run_through (f := fun parser => { s with parser }) hstep s.parser xs

/-- A request that is complete is taken out. -/
theorem run_complete {s : Exchanges} {p : HttpParser} (hopen : s.closing = false)
    (hparser : s.parser = (p, none)) (hp : p.state = .kComplete) (xs : Bytes) :
    (consumer ord).run s xs = (consumer ord).run (s.complete p) xs :=
  Consumer.run_of_some (advance_of_complete hopen hparser hp xs)

/-- What a part of a stream asks for comes first in what all of it asks for. -/
theorem requestsOf_mono (xs ys : Bytes) : requestsOf ord xs <+: requestsOf ord (xs ++ ys) := by
  rw [requestsOf, requestsOf, Consumer.run_append]
  exact requests_mono _ _

end Exchanges

end LightNet.Http
