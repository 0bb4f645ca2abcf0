/-
# LightNet.Http.Section — the head of a request, as its bytes say it.

`Head xs start fields tail` reads a byte string without a parser: `xs` begins with a start line that
is accepted, header lines with these fields, and the blank line, and `tail` is what follows.  The run
of the parser over `xs` is then the run over `tail` of what the blank line makes of the stored fields
(`run_head`); where there is no such head yet, the parser waits or has refused a line
(`run_of_no_head`).

A repeated name keeps its last value, so the stored table is the fields read from the back
(`foldl_store_lookup_last`), and `keep_alive_` is the verdict of the last name in one of two exact
spellings (`foldl_store_keepAlive`).
-/
import LightNet.Http.Pipeline

namespace LightNet.Http

open LightNet.Foundation LightNet.Core
open Buffer (searchCrlf)

/-! ## Single lines, without a parser -/

/-- The name and the value of a header line. -/
def headerField (line : Bytes) : Option (Bytes × Bytes) :=
  (splitAtFirst 58 line).map fun r => (r.1, r.2.dropWhile isspace)

/-- The parts of a start line. -/
structure StartLine where
  method : Bytes
  path : Bytes
  version : Bytes
  deriving DecidableEq

/-- The parts of a start line that is accepted. -/
def startLine (line : Bytes) : Option StartLine :=
  match splitAtFirst 32 line with
  | none => none
  | some (method, afterMethod) =>
      match splitAtFirst 32 afterMethod with
      | none => none
      | some (path, version) =>
          if version.length < 8 ∨ version.take 5 ≠ kHttpSlash then none
          else if path = [] ∨ path.head? ≠ some 47 then none
          else some { method, path, version }

/-- The table that the fields make. -/
def tableOf (fields : List (Bytes × Bytes)) : UnorderedMap Bytes Bytes :=
  fields.foldl (fun m f => UnorderedMap.assign f.1 f.2 m) ∅

namespace HttpParser

/-- A header line is stored or refused, by its field alone. -/
theorem parseHeaderLine_eq (p : HttpParser) (line : Bytes) :
    p.parseHeaderLine line = match headerField line with
      | none => (false, p)
      | some f => (true, p.store f) := by
  unfold parseHeaderLine headerField
  cases splitAtFirst 58 line with
  | none => rfl
  | some r =>
      simp only [Option.map_some, store]
      split <;> rfl

/-- The parser that has read a start line. -/
def started (s : StartLine) : HttpParser where
  state := .kHeaders
  request := { method := s.method, path := s.path, version := s.version }

/-- A start line is accepted or refused by its parts alone. -/
theorem parseStartLine_cases (p : HttpParser) (line : Bytes) :
    (startLine line = none ∧ (p.parseStartLine line).1 = false)
      ∨ ∃ s, startLine line = some s ∧ p.parseStartLine line = (true, { p with
          request := { p.request with method := s.method, path := s.path, version := s.version } }) := by
  unfold startLine parseStartLine
  -- the same tests, in the same order
  cases splitAtFirst 32 line with
  | none => exact .inl ⟨rfl, rfl⟩
  | some r =>
      obtain ⟨method, afterMethod⟩ := r
      simp only
      cases splitAtFirst 32 afterMethod with
      | none => exact .inl ⟨rfl, rfl⟩
      | some r =>
          obtain ⟨path, version⟩ := r
          simp only
          split
          · exact .inl ⟨rfl, rfl⟩
          · split
            · exact .inl ⟨rfl, rfl⟩
            · exact .inr ⟨_, rfl, rfl⟩

theorem onLine_startLine (ord : IterOrder Bytes) {line : Bytes} {s : StartLine}
    (h : startLine line = some s) : new.onLine ord line = (started s, none) := by
  have hstate : new.state = .kStartLine := rfl
  rcases parseStartLine_cases new line with ⟨hnone, -⟩ | ⟨s', hs', hparse⟩
  · cases h.symm.trans hnone
  · obtain rfl := Option.some.inj (h.symm.trans hs')
    simp only [onLine, hstate, hparse]
    rfl

theorem onLine_refused (ord : IterOrder Bytes) {line : Bytes} (h : startLine line = none) :
    ∃ q : HttpParser, new.onLine ord line = (q, none) ∧ q.state = .kError := by
  have hstate : new.state = .kStartLine := rfl
  rcases parseStartLine_cases new line with ⟨-, hfalse⟩ | ⟨s', hs', -⟩
  · rcases hparse : new.parseStartLine line with ⟨accepted, p⟩
    rw [hparse] at hfalse
    cases hfalse
    exact ⟨{ p with state := .kError }, by simp only [onLine, hstate, hparse], rfl⟩
  · cases h.symm.trans hs'

/-! ## The stored fields -/

/-- The table is the fields read from the back. -/
theorem foldl_store_lookup_last (fields : List (Bytes × Bytes)) (p : HttpParser) (name : Bytes) :
    (fields.foldl store p).request.headers.lookup name
      = (fields.reverse.lookup name).or (p.request.headers.lookup name) := by
  induction fields generalizing p with
  | nil => rfl
  | cons f fields ih =>
      obtain ⟨n, v⟩ := f
      rw [List.foldl_cons, ih, List.reverse_cons, List.lookup_append, Option.or_assoc]
      congr 1
      show (UnorderedMap.assign n v p.request.headers).lookup name = _
      rw [UnorderedMap.lookup_assign, List.lookup_cons, List.lookup_nil]
      by_cases hn : name = n
      · simp [hn]
      · simp [hn, beq_false_of_ne hn]

/-- The spellings that `parse_header_line` takes for the connection header. -/
def SpelledConnection (f : Bytes × Bytes) : Prop := f.1 = kConnection ∨ f.1 = kConnectionLower

instance (f : Bytes × Bytes) : Decidable (SpelledConnection f) :=
  inferInstanceAs (Decidable (_ ∨ _))

/-- `keep_alive_` is the verdict of the last line in one of the two spellings. -/
theorem foldl_store_keepAlive (fields : List (Bytes × Bytes)) (p : HttpParser) :
    (fields.foldl store p).keepAlive
      = match fields.reverse.find? fun f => SpelledConnection f with
        | some f => f.2 != kClose
        | none => p.keepAlive := by
  induction fields generalizing p with
  | nil => rfl
  | cons f fields ih =>
      rw [List.foldl_cons, ih, List.reverse_cons, List.find?_append]
      cases fields.reverse.find? fun f => SpelledConnection f with
      | some g => rfl
      | none =>
          by_cases hf : SpelledConnection f
          · simp [hf, store, show f.1 = kConnection ∨ f.1 = kConnectionLower from hf]
          · simp [hf, store, show ¬ (f.1 = kConnection ∨ f.1 = kConnectionLower) from hf]

theorem foldl_store_headers (fields : List (Bytes × Bytes)) (p : HttpParser) :
    (fields.foldl store p).request.headers
      = fields.foldl (fun m f => UnorderedMap.assign f.1 f.2 m) p.request.headers := by
  induction fields generalizing p with
  | nil => rfl
  | cons f fields ih => exact ih (p.store f)

end HttpParser

theorem tableOf_lookup (fields : List (Bytes × Bytes)) (name : Bytes) :
    (tableOf fields).lookup name = fields.reverse.lookup name := by
  have h := HttpParser.foldl_store_lookup_last fields HttpParser.new name
  rw [HttpParser.foldl_store_headers] at h
  rw [tableOf]
  exact h.trans Option.or_none

/-! ## The head of a byte string -/

/-- `xs` begins with header lines that have these fields, and the blank line; `tail` follows. -/
inductive Section : Bytes → List (Bytes × Bytes) → Bytes → Prop
  | blank {xs : Bytes} (hcrlf : searchCrlf xs = some 0) : Section xs [] (xs.drop 2)
  | field {xs : Bytes} {i : Nat} {f : Bytes × Bytes} {fields : List (Bytes × Bytes)} {tail : Bytes}
      (hcrlf : searchCrlf xs = some (i + 1)) (hfield : headerField (xs.take (i + 1)) = some f)
      (hrest : Section (xs.drop (i + 1 + 2)) fields tail) : Section xs (f :: fields) tail

/-- `xs` begins with a whole head: a start line, header lines and the blank line. -/
def Head (xs : Bytes) (s : StartLine) (fields : List (Bytes × Bytes)) (tail : Bytes) : Prop :=
  ∃ i, searchCrlf xs = some i ∧ startLine (xs.take i) = some s ∧ Section (xs.drop (i + 2)) fields tail

namespace HttpParser

variable {ord : IterOrder Bytes}

/-- The parser that has read a head up to the blank line. -/
def headed (s : StartLine) (fields : List (Bytes × Bytes)) : HttpParser :=
  fields.foldl store (started s)

theorem headed_frame (s : StartLine) (fields : List (Bytes × Bytes)) :
    (headed s fields).state = .kHeaders ∧ (headed s fields).request.version = s.version
      ∧ (headed s fields).request.headers = tableOf fields ∧ (headed s fields).request.body = [] := by
  obtain ⟨hstate, -, -, hversion, hbody⟩ := foldl_store_frame (started s) fields
  exact ⟨hstate, hversion, foldl_store_headers fields (started s), hbody⟩

/-- A line that is accepted is consumed with its line end. -/
theorem run_of_crlf {p : HttpParser} (hp : p.ReadsLine) {xs : Bytes} {i : Nat}
    (hcrlf : searchCrlf xs = some i) (hok : (p.onLine ord (xs.take i)).1.state ≠ .kError) :
    (consumer ord).run (p, none) xs = (consumer ord).run (p.onLine ord (xs.take i)) (xs.drop (i + 2)) := by
  apply run_of_advance
  rw [advance_of_readsLine ord hp, hcrlf, Option.map_some, if_neg hok]

theorem take_ne_nil {xs : Bytes} {i : Nat} (h : searchCrlf xs = some (i + 1)) :
    xs.take (i + 1) ≠ [] := by
  have hle := searchCrlf_le h
  rw [ne_eq, List.take_eq_nil_iff, not_or]
  exact ⟨Nat.succ_ne_zero i, List.ne_nil_of_length_pos (by omega)⟩

theorem onLine_field {p : HttpParser} (hp : p.state = .kHeaders) {line : Bytes} (hne : line ≠ [])
    {f : Bytes × Bytes} (hf : headerField line = some f) :
    p.onLine ord line = (p.store f, none) := by
  simp only [onLine, hp, hne, if_false, parseHeaderLine_eq, hf]

/-- What the blank line makes of the parser is never an error. -/
theorem onLine_blank_ok {p : HttpParser} (hp : p.state = .kHeaders) :
    (p.onLine ord []).1.state ≠ .kError := by
  simp only [onLine, hp, if_true]
  split
  · simp
  · split
    · rw [hp]
      decide
    · simp

/-! ## Reading a head -/

theorem run_section {p : HttpParser} (hp : p.state = .kHeaders) {xs tail : Bytes}
    {fields : List (Bytes × Bytes)} (h : Section xs fields tail) :
    (consumer ord).run (p, none) xs
      = (consumer ord).run ((fields.foldl store p).onLine ord []) tail := by
  -- on the lines: each is consumed whole and stores its field
  induction h generalizing p with
  | @blank xs hcrlf =>
      have hok : (p.onLine ord (xs.take 0)).1.state ≠ .kError := by
        rw [List.take_zero]
        exact onLine_blank_ok hp
      have hrun := run_of_crlf (.inr hp) hcrlf hok
      rwa [List.take_zero] at hrun
  | @field xs i f fields tail hcrlf hfield hrest ih =>
      have honline := @onLine_field ord p hp _ (take_ne_nil hcrlf) f hfield
      have hstate : (p.store f).state = .kHeaders := hp
      have hok : (p.onLine ord (xs.take (i + 1))).1.state ≠ .kError := by
        rw [honline, hstate]
        decide
      rw [run_of_crlf (.inr hp) hcrlf hok, honline]
      exact ih hstate

/-- **A whole head.** The run goes on behind the blank line, with what that line makes of the
fields. -/
theorem run_head {xs tail : Bytes} {s : StartLine} {fields : List (Bytes × Bytes)}
    (h : Head xs s fields tail) :
    (consumer ord).run (new, none) xs = (consumer ord).run ((headed s fields).onLine ord []) tail := by
  obtain ⟨i, hcrlf, hstart, hrest⟩ := h
  have honline := onLine_startLine ord hstart
  have hok : (new.onLine ord (xs.take i)).1.state ≠ .kError := by
    rw [honline]
    simp [started]
  rw [run_of_crlf (.inl rfl) hcrlf hok, honline]
  exact run_section rfl hrest

/-! ## A head or a part of one -/

/-- The states in which the head is not read yet, or is refused. -/
def BeforeBlank (q : HttpParser) : Prop :=
  q.state = .kStartLine ∨ q.state = .kHeaders ∨ q.state = .kError

/-- Without a whole section the parser waits or refuses a line. -/
theorem section_or_waits {p : HttpParser} (hp : p.state = .kHeaders) (xs : Bytes) :
    (∃ fields tail, Section xs fields tail)
      ∨ ∃ q rest, (consumer ord).run (p, none) xs = ((q, none), rest) ∧ q.BeforeBlank := by
  -- on the length: a line that is accepted leaves less to read
  induction hn : xs.length using Nat.strongRecOn generalizing p xs with
  | _ n ih =>
    cases hcrlf : searchCrlf xs with
    | none =>
        have hstuck : advance ord (p, none) xs = none := by
          rw [advance_of_readsLine ord (.inr hp), hcrlf, Option.map_none]
        exact .inr ⟨p, xs, run_of_stuck hstuck, .inr (.inl hp)⟩
    | some i =>
        have hle := searchCrlf_le hcrlf
        cases i with
        | zero => exact .inl ⟨[], _, .blank hcrlf⟩
        | succ i =>
            cases hfield : headerField (xs.take (i + 1)) with
            | none =>
                have honline : p.onLine ord (xs.take (i + 1)) = ({ p with state := .kError }, none) := by
                  simp only [onLine, hp, take_ne_nil hcrlf, if_false, parseHeaderLine_eq, hfield]
                have hadv : advance ord (p, none) xs = some (({ p with state := .kError }, none), xs) := by
                  rw [advance_of_readsLine ord (.inr hp), hcrlf, Option.map_some, honline, if_pos rfl]
                refine .inr ⟨{ p with state := .kError }, xs, ?_, .inr (.inr rfl)⟩
                rw [run_of_advance hadv]
                exact Consumer.run_of_final (final_of_error rfl) xs
            | some f =>
                have honline := @onLine_field ord p hp _ (take_ne_nil hcrlf) f hfield
                have hstate : (p.store f).state = .kHeaders := hp
                have hok : (p.onLine ord (xs.take (i + 1))).1.state ≠ .kError := by
                  rw [honline, hstate]
                  decide
                have hlt : (xs.drop (i + 1 + 2)).length < n := by
                  rw [List.length_drop]
                  omega
                rcases ih _ hlt hstate (xs.drop (i + 1 + 2)) rfl with ⟨fields, tail, h⟩ | hwaits
                · exact .inl ⟨f :: fields, tail, .field hcrlf hfield h⟩
                · rw [run_of_crlf (.inr hp) hcrlf hok, honline]
                  exact .inr hwaits

/-- **No whole head.** The parser waits or has refused a line. -/
theorem head_or_waits (ord : IterOrder Bytes) (xs : Bytes) :
    (∃ s fields tail, Head xs s fields tail)
      ∨ ∃ q rest, (consumer ord).run (new, none) xs = ((q, none), rest) ∧ q.BeforeBlank := by
  cases hcrlf : searchCrlf xs with
  | none =>
      have hstuck : advance ord (new, none) xs = none := by
        rw [advance_of_readsLine ord (.inl rfl), hcrlf, Option.map_none]
      exact .inr ⟨new, xs, run_of_stuck hstuck, .inl rfl⟩
  | some i =>
      cases hstart : startLine (xs.take i) with
      | none =>
          obtain ⟨q, honline, hq⟩ := onLine_refused ord hstart
          have hadv : advance ord (new, none) xs = some ((q, none), xs) := by
            rw [advance_of_readsLine ord (.inl rfl), hcrlf, Option.map_some, honline, if_pos hq]
          refine .inr ⟨q, xs, ?_, .inr (.inr hq)⟩
          rw [run_of_advance hadv]
          exact Consumer.run_of_final (final_of_error hq) xs
      | some s =>
          have honline := onLine_startLine ord hstart
          have hok : (new.onLine ord (xs.take i)).1.state ≠ .kError := by
            rw [honline]
            simp [started]
          rcases @section_or_waits ord (started s) rfl (xs.drop (i + 2)) with
            ⟨fields, tail, h⟩ | hwaits
          · exact .inl ⟨s, fields, tail, i, hcrlf, hstart, h⟩
          · rw [run_of_crlf (.inl rfl) hcrlf hok, honline]
            exact .inr hwaits

/-! ## A stream, however it is delivered -/

/-- The parser and the buffer after calls of `parse` that have returned, on a buffer that bytes are
added to in between; `xs` is all that was delivered since the parser was fresh. -/
inductive Fed (ord : IterOrder Bytes) : Bytes → HttpParser → Buffer → Prop
  | fresh {buf : Buffer} (hinv : buf.Inv) : Fed ord buf.readable new buf
  | parse {xs : Bytes} {p : HttpParser} {buf : Buffer} (h : Fed ord xs p buf)
      (hreturned : (p.parse ord buf).thrown = none) :
      Fed ord xs (p.parse ord buf).parser (p.parse ord buf).buf
  | arrive {xs : Bytes} {p : HttpParser} {buf buf' : Buffer} {bytes : Bytes} (h : Fed ord xs p buf)
      (hinv : buf'.Inv) (hbuf : buf'.readable = buf.readable ++ bytes) : Fed ord (xs ++ bytes) p buf'

/-- What is left to do with the stream is to run on over the buffer. -/
theorem Fed.run_eq {xs : Bytes} {p : HttpParser} {buf : Buffer} (h : Fed ord xs p buf) :
    buf.Inv ∧ (consumer ord).run (new, none) xs = (consumer ord).run (p, none) buf.readable := by
  -- on the delivery: a call runs as far as it can, and bytes that arrive are appended
  induction h with
  | fresh hinv => exact ⟨hinv, rfl⟩
  | @parse xs p buf _ hreturned ih =>
      obtain ⟨hinv, hrun⟩ := ih
      have hagrees := parse_agrees ord (p := p) hinv
      have hstate := hagrees.state_eq
      rw [hreturned] at hstate
      have hstuck := Consumer.step_run (C := consumer ord) (p, none) buf.readable
      rw [← hstate, ← hagrees.readable_eq] at hstuck
      refine ⟨hagrees.inv, ?_⟩
      rw [hrun, Consumer.run_of_none hstuck, hstate, hagrees.readable_eq]
  | @arrive xs p buf buf' bytes _ hinv hbuf ih =>
      refine ⟨hinv, ?_⟩
      rw [Consumer.run_append, ih.2, ← Consumer.run_append, hbuf]

/-- The next call ends where the run over the whole stream ends. -/
theorem Fed.parse_agrees {xs : Bytes} {p : HttpParser} {buf : Buffer} (h : Fed ord xs p buf) :
    Agrees buf (p.parse ord buf) ((consumer ord).run (new, none) xs) := by
  obtain ⟨hinv, hrun⟩ := h.run_eq
  rw [hrun]
  exact HttpParser.parse_agrees ord hinv

end HttpParser

end LightNet.Http
