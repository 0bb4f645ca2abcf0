/-
# LightNet.Http.Chunks — parsing does not depend on how the stream is cut.

`parseChunks` is what a connection does with a stream that arrives in pieces: append a chunk, call
`parse`, and stop once the parser is done, has failed, or has thrown.  Because the parser refines an
incremental consumer, this ends where one call on the whole stream ends.  The only condition is that
the stream fits into one buffer below `kMaxCapacity`, without which there is no "one call" to
compare with.
-/
import LightNet.Http.ParserQueue

namespace LightNet.Http

open LightNet.Foundation LightNet.Core

/-- The call has ended for good: complete, failed, or thrown. -/
def ParseResult.Stopped (r : ParseResult) : Prop :=
  r.thrown ≠ none ∨ r.parser.state = .kComplete ∨ r.parser.state = .kError

instance (r : ParseResult) : Decidable r.Stopped := inferInstanceAs (Decidable (_ ∨ _ ∨ _))

/-- Where a chunked delivery ends: as a call of `parse`, with the chunks not delivered. -/
structure ChunksResult extends ParseResult where
  undelivered : List Bytes

namespace HttpParser

/-- Append the chunks one by one and call `parse` after each. -/
def parseChunks (ord : IterOrder Bytes) : HttpParser → Buffer → List Bytes → ChunksResult
  | p, buf, [] => { parser := p, buf, thrown := none, undelivered := [] }
  | p, buf, chunk :: chunks =>
      let r := p.parse ord (buf.append chunk)
      if r.Stopped then { r with undelivered := chunks }
      else parseChunks ord r.parser r.buf chunks

/-! ## The refinement -/

theorem final_of_stopped {ord : IterOrder Bytes} {r : ParseResult} (h : r.Stopped) :
    (consumer ord).Final (r.parser, r.thrown) := by
  rcases hthrown : r.thrown with _ | e
  · rcases h with h | h | h
    · exact absurd hthrown h
    · exact final_of_complete h
    · exact final_of_error h
  · exact final_of_thrown ord r.parser e

/-- The chunked delivery, seen as one run of the consumer over all the bytes. -/
theorem parseChunks_run (ord : IterOrder Bytes) {p : HttpParser} {buf : Buffer}
    {chunks : List Bytes} (hinv : buf.Inv) (hstuck : advance ord (p, none) buf.readable = none)
    (hcap : buf.writerIndex + chunks.flatten.length ≤ Buffer.kMaxCapacity) :
    ((parseChunks ord p buf chunks).parser, (parseChunks ord p buf chunks).thrown)
        = ((consumer ord).run (p, none) (buf.readable ++ chunks.flatten)).1
      ∧ (parseChunks ord p buf chunks).buf.readable
          ++ (parseChunks ord p buf chunks).undelivered.flatten
        = ((consumer ord).run (p, none) (buf.readable ++ chunks.flatten)).2 := by
  induction chunks generalizing p buf with
  | nil =>
      rw [List.flatten_nil, List.append_nil, run_of_stuck hstuck]
      exact ⟨rfl, List.append_nil _⟩
  | cons chunk chunks ih =>
      rw [List.flatten_cons, List.length_append] at hcap
      have hfits : buf.Fits chunk.length := Buffer.Fits.of_le (by omega)
      obtain ⟨hinv₁, hread₁, hwriter₁⟩ := Buffer.append_spec hinv hfits
      have hagrees := parse_agrees ord (p := p) hinv₁
      rw [hread₁] at hagrees
      rw [List.flatten_cons, ← List.append_assoc, Consumer.run_append, ← hagrees.state_eq,
        ← hagrees.readable_eq]
      simp only [parseChunks]
      split
      · -- a parser that has stopped leaves the other chunks alone, and so does the consumer
        rename_i hstop
        rw [Consumer.run_of_final (final_of_stopped hstop)]
        exact ⟨rfl, rfl⟩
      · rename_i hgo
        have hthrown : (p.parse ord (buf.append chunk)).thrown = none := by
          by_contra h
          exact hgo (.inl h)
        have hstuck₁ := Consumer.step_run (C := consumer ord) (p, none) (buf.readable ++ chunk)
        rw [← hagrees.state_eq, ← hagrees.readable_eq, hthrown] at hstuck₁
        rw [hthrown]
        exact ih hagrees.inv hstuck₁ (by have := hagrees.writer_le; omega)

/-- **Fragmentation is invisible.** However a stream is cut, appending the chunks one by one and
parsing after each ends in the same parser (state, request, `keep_alive`), with the same exception
if any, and with the same bytes left, as one call on the whole stream. -/
theorem parseChunks_eq_parse (ord : IterOrder Bytes) (chunks : List Bytes)
    (hcap : Buffer.kCheapPrepend + chunks.flatten.length ≤ Buffer.kMaxCapacity) :
    (parseChunks ord new Buffer.new chunks).parser
        = (new.parse ord (Buffer.new.append chunks.flatten)).parser
      ∧ (parseChunks ord new Buffer.new chunks).thrown
        = (new.parse ord (Buffer.new.append chunks.flatten)).thrown
      ∧ (parseChunks ord new Buffer.new chunks).buf.readable
          ++ (parseChunks ord new Buffer.new chunks).undelivered.flatten
        = (new.parse ord (Buffer.new.append chunks.flatten)).buf.readable := by
  have hfits : Buffer.new.Fits chunks.flatten.length := Buffer.Fits.of_le hcap
  have hstuck : advance ord (new, none) Buffer.new.readable = none := by
    rw [Buffer.new_readable]
    rfl
  obtain ⟨hstate, hrest⟩ := parseChunks_run ord Buffer.new_inv hstuck hcap
  have hwhole := parse_agrees ord (p := new) (Buffer.append_inv Buffer.new_inv hfits)
  rw [Buffer.append_readable Buffer.new_inv hfits] at hwhole
  rw [← hwhole.state_eq] at hstate
  rw [← hwhole.readable_eq] at hrest
  obtain ⟨hparser, hthrown⟩ := Prod.mk.inj hstate
  exact ⟨hparser, hthrown, hrest⟩

/-- `GET / HTTP/1.1` with a blank line, cut inside both line ends. -/
theorem parseChunks_eq_parse_sample :
    (parseChunks (IterOrder.entries Bytes) new Buffer.new
      [[71, 69, 84, 32, 47, 32], [72, 84, 84, 80, 47, 49, 46, 49, 13], [10, 13], [10]]).parser.state
        = .kComplete := by
  rw [(parseChunks_eq_parse (IterOrder.entries Bytes) _ (by decide)).1]
  decide +kernel

end HttpParser

end LightNet.Http
