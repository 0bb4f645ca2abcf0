/-
# LightNet.Http.ContentLength — what the parser makes of a declared length.

The value of `Content-Length` is free text off the wire.  A well-formed one is a decimal number below
2^64 with nothing but white space around it (`Announces`).  `Validates` is the contract on a call of
`parse`, over the whole stream delivered so far: no declared length ends the request at the blank line,
an announced one makes the parser wait for exactly that many bytes, any other text is an error, and the
call does not throw.

`parse` hands the text to `std::stoul` and checks nothing itself.  `stoul` agrees with the contract on
announced lengths; on every other text it either throws or returns a number that nobody announced.  So
the contract holds exactly on the streams that declare nothing else (`validates_iff`).
-/
import LightNet.Http.Section

namespace LightNet.Http

open LightNet.Foundation LightNet.Core

/-- The value is the number `n`, in decimal, with nothing but white space around it. -/
def Announces (value : Bytes) (n : Nat) : Prop :=
  ∃ lead ds trail, value = lead ++ (ds ++ trail) ∧ (∀ c ∈ lead, isspace c = true)
    ∧ (∀ c ∈ trail, isspace c = true) ∧ IsDecimal ds n ∧ n < 2 ^ 64

theorem stoul_announced {value : Bytes} {n : Nat} (h : Announces value n) : stoul value = .ok n := by
  obtain ⟨lead, ds, trail, rfl, hlead, htrail, hdec, hlt⟩ := h
  exact HttpParser.stoul_spaced hlead htrail hdec hlt

theorem Announces.ne_nil {value : Bytes} {n : Nat} (h : Announces value n) : value ≠ [] := by
  obtain ⟨lead, ds, trail, rfl, -, -, hdec, -⟩ := h
  simp [hdec.1]

/-- The text that `get_header("Content-Length")` finds among the fields. -/
def declared (ord : IterOrder Bytes) (fields : List (Bytes × Bytes)) : Bytes :=
  HttpRequest.getHeader ord { headers := tableOf fields } kContentLength

/-- The contract on a call of `parse`, once the stream `xs` has been delivered. -/
structure Validates (ord : IterOrder Bytes) (xs : Bytes) (r : ParseResult) : Prop where
  not_thrown : r.thrown = none
  /-- No such header: an empty body. -/
  absent : ∀ s fields tail, Head xs s fields tail → (∀ f ∈ fields, ¬ SameName f.1 kContentLength) →
    r.parser.state = .kComplete ∧ r.parser.request.body = [] ∧ r.buf.readable = tail
  /-- A number: the parser waits for that many bytes, and takes no others. -/
  announced : ∀ s fields tail n, Head xs s fields tail → Announces (declared ord fields) n →
    if tail.length < n then
      r.parser.state = .kBody ∧ r.parser.contentLength = n ∧ r.buf.readable = tail
    else
      r.parser.state = .kComplete ∧ r.parser.request.body = tail.take n
        ∧ r.buf.readable = tail.drop n
  /-- Any other text: an error. -/
  malformed : ∀ s fields tail, Head xs s fields tail → declared ord fields ≠ [] →
    (∀ n, ¬ Announces (declared ord fields) n) → r.parser.state = .kError

namespace HttpParser

variable {ord : IterOrder Bytes}

theorem headed_getHeader (s : StartLine) (fields : List (Bytes × Bytes)) (key d : Bytes) :
    (headed s fields).request.getHeader ord key d
      = HttpRequest.getHeader ord { headers := tableOf fields } key d := by
  unfold HttpRequest.getHeader
  rw [(headed_frame s fields).2.2.1]

/-- No declared length is found where no name is `Content-Length`. -/
theorem declared_of_absent {fields : List (Bytes × Bytes)}
    (h : ∀ f ∈ fields, ¬ SameName f.1 kContentLength) : declared ord fields = [] := by
  apply HttpRequest.getHeader_of_absent
  intro n w hlook
  have hlast : fields.reverse.lookup n = some w := (tableOf_lookup fields n).symm.trans hlook
  exact h (n, w) (List.mem_reverse.mp (mem_of_lookup hlast))

/-! ## Behind the blank line -/

/-- Nothing declared: the request is complete. -/
theorem run_undeclared {xs tail : Bytes} {s : StartLine} {fields : List (Bytes × Bytes)}
    (h : Head xs s fields tail) (hcl : declared ord fields = []) :
    (consumer ord).run (new, none) xs = (({ headed s fields with state := .kComplete }, none), tail) := by
  have hstate := (headed_frame s fields).1
  have hblank : (headed s fields).onLine ord [] = ({ headed s fields with state := .kComplete }, none) := by
    rw [declared, ← headed_getHeader s] at hcl
    simp only [onLine, hstate, hcl, if_true]
  rw [run_head h, hblank]
  exact Consumer.run_of_final (final_of_complete rfl) tail

/-- A length that `stoul` reads: the parser waits for that many bytes or takes them. -/
theorem run_declared {xs tail : Bytes} {s : StartLine} {fields : List (Bytes × Bytes)}
    (h : Head xs s fields tail) (hne : declared ord fields ≠ []) {n : Nat}
    (hlen : stoul (declared ord fields) = .ok n) :
    (consumer ord).run (new, none) xs
      = if tail.length < n then (({ headed s fields with contentLength := n, state := .kBody }, none), tail)
        else ((onBody { headed s fields with contentLength := n } (tail.take n), none), tail.drop n) := by
  have hstate := (headed_frame s fields).1
  have hblank : (headed s fields).onLine ord []
      = ({ headed s fields with contentLength := n, state := .kBody }, none) := by
    rw [declared, ← headed_getHeader s] at hne hlen
    simp only [onLine, hstate, hne, if_true, if_false, hlen]
  have hadv := @advance_of_body ord { headed s fields with contentLength := n, state := .kBody } rfl tail
  rw [run_head h, hblank]
  split
  · rename_i hlt
    rw [if_pos hlt] at hadv
    exact run_of_stuck hadv
  · rename_i hge
    rw [if_neg hge] at hadv
    rw [run_of_advance hadv]
    exact Consumer.run_of_final (final_of_complete rfl) (tail.drop n)

/-- A length that `stoul` throws on: the exception ends the call. -/
theorem run_thrown {xs tail : Bytes} {s : StartLine} {fields : List (Bytes × Bytes)}
    (h : Head xs s fields tail) (hne : declared ord fields ≠ []) {e : StdError}
    (hlen : stoul (declared ord fields) = .error e) :
    (consumer ord).run (new, none) xs = ((headed s fields, some e), tail) := by
  have hstate := (headed_frame s fields).1
  have hblank : (headed s fields).onLine ord [] = (headed s fields, some e) := by
    rw [declared, ← headed_getHeader s] at hne hlen
    simp only [onLine, hstate, hne, if_true, if_false, hlen]
  rw [run_head h, hblank]
  exact Consumer.run_of_final (final_of_thrown ord _ e) tail

/-! ## The contract -/

/-- On a stream that declares nothing else than numbers the call keeps the contract. -/
theorem validates_of_announced {xs : Bytes} {r : ParseResult} {buf : Buffer}
    (hagrees : Agrees buf r ((consumer ord).run (new, none) xs))
    (hok : ∀ s fields tail, Head xs s fields tail →
      declared ord fields = [] ∨ ∃ n, Announces (declared ord fields) n) : Validates ord xs r where
  not_thrown := by
    have hstate := congrArg Prod.snd hagrees.state_eq
    rw [show r.thrown = _ from hstate]
    rcases head_or_waits ord xs with ⟨s, fields, tail, hhead⟩ | ⟨q, rest, hrun, -⟩
    · rcases hok s fields tail hhead with hnone | ⟨n, hn⟩
      · rw [run_undeclared hhead hnone]
      · rw [run_declared hhead hn.ne_nil (stoul_announced hn)]
        split <;> rfl
    · rw [hrun]
  absent := by
    intro s fields tail hhead hno
    have hcl : declared ord fields = [] := declared_of_absent hno
    have hrun := run_undeclared hhead hcl
    obtain ⟨hparser, -⟩ := Prod.mk.inj (hagrees.state_eq.trans (congrArg Prod.fst hrun))
    refine ⟨by rw [hparser], ?_, hagrees.readable_eq.trans (congrArg Prod.snd hrun)⟩
    rw [hparser]
    exact (headed_frame s fields).2.2.2
  announced := by
    intro s fields tail n hhead hn
    have hrun := run_declared hhead hn.ne_nil (stoul_announced hn)
    have hstate := hagrees.state_eq.trans (congrArg Prod.fst hrun)
    have hread := hagrees.readable_eq.trans (congrArg Prod.snd hrun)
    split
    · rename_i hlt
      rw [if_pos hlt] at hstate hread
      obtain ⟨hparser, -⟩ := Prod.mk.inj hstate
      rw [hparser]
      exact ⟨rfl, rfl, hread⟩
    · rename_i hge
      rw [if_neg hge] at hstate hread
      obtain ⟨hparser, -⟩ := Prod.mk.inj hstate
      rw [hparser]
      exact ⟨rfl, rfl, hread⟩
  malformed := by
    intro s fields tail hhead hne hbad
    rcases hok s fields tail hhead with hnone | ⟨n, hn⟩
    · exact absurd hnone hne
    · exact absurd hn (hbad n)

/-- Behind a length that nobody announced the parser never stands in an error. -/
theorem announced_of_validates {xs : Bytes} {r : ParseResult} {buf : Buffer}
    (hagrees : Agrees buf r ((consumer ord).run (new, none) xs)) (hvalid : Validates ord xs r)
    {s : StartLine} {fields : List (Bytes × Bytes)} {tail : Bytes} (hhead : Head xs s fields tail)
    (hne : declared ord fields ≠ []) : ∃ n, Announces (declared ord fields) n := by
  by_contra hbad
  have herror := hvalid.malformed s fields tail hhead hne (not_exists.mp hbad)
  cases hlen : stoul (declared ord fields) with
  | error e =>
      -- the exception itself breaks the contract
      have hstate := hagrees.state_eq.trans (congrArg Prod.fst (run_thrown hhead hne hlen))
      cases hvalid.not_thrown.symm.trans (Prod.mk.inj hstate).2
  | ok n =>
      -- the text was taken for a number: the parser reads a body
      have hstate := hagrees.state_eq.trans (congrArg Prod.fst (run_declared hhead hne hlen))
      split at hstate
      · rw [(Prod.mk.inj hstate).1] at herror
        cases herror
      · rw [(Prod.mk.inj hstate).1] at herror
        cases herror

/-- **When a declared length is validated.** However a stream is delivered, the next call keeps the
contract exactly when the head of the stream, if it is complete, declares no length, an empty one, or
a decimal number below 2^64 with nothing but white space around it. -/
theorem validates_iff {xs : Bytes} {p : HttpParser} {buf : Buffer} (hfed : Fed ord xs p buf) :
    Validates ord xs (p.parse ord buf) ↔ ∀ s fields tail, Head xs s fields tail →
      declared ord fields = [] ∨ ∃ n, Announces (declared ord fields) n := by
  have hagrees := hfed.parse_agrees
  constructor
  · intro hvalid s fields tail hhead
    by_cases hne : declared ord fields = []
    · exact .inl hne
    · exact .inr (announced_of_validates hagrees hvalid hhead hne)
  · intro hok
    exact validates_of_announced hagrees hok

/-! ## An input on which it fails -/

/-- `GET / HTTP/1.1` with `Content-Length: ` and this value. -/
def lengthRequest (value : Bytes) : Bytes :=
  getRoot.startLine ++ crlf ++ (kContentLength ++ 58 :: 32 :: value) ++ crlf ++ crlf

theorem lengthRequest_fed (ord : IterOrder Bytes) :
    Fed ord (Buffer.new.append (lengthRequest [120])).readable new
      (Buffer.new.append (lengthRequest [120])) :=
  .fresh (Buffer.append_inv Buffer.new_inv (Buffer.Fits.of_le (by decide +kernel)))

/-- A length that is not a number leaves `parse` as an exception. -/
theorem lengthRequest_thrown :
    (new.parse (IterOrder.entries Bytes) (Buffer.new.append (lengthRequest [120]))).thrown
      = some .invalidArgument := by
  decide +kernel

theorem validates_iff_sample :
    ¬ ∀ s fields tail, Head (Buffer.new.append (lengthRequest [120])).readable s fields tail →
      declared (IterOrder.entries Bytes) fields = []
        ∨ ∃ n, Announces (declared (IterOrder.entries Bytes) fields) n := by
  intro hok
  have hvalid := (validates_iff (lengthRequest_fed (IterOrder.entries Bytes))).mpr hok
  cases hvalid.not_thrown.symm.trans lengthRequest_thrown

/-- **The length is not validated.** `Content-Length: x` throws out of `parse`. -/
theorem length_not_validated :
    ∃ xs p buf, Fed (IterOrder.entries Bytes) xs p buf
      ∧ ¬ Validates (IterOrder.entries Bytes) xs (p.parse (IterOrder.entries Bytes) buf) := by
  refine ⟨_, _, _, lengthRequest_fed (IterOrder.entries Bytes), ?_⟩
  intro hvalid
  cases hvalid.not_thrown.symm.trans lengthRequest_thrown

end HttpParser

end LightNet.Http
