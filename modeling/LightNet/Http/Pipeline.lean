/-
# LightNet.Http.Pipeline — pipelined requests are recovered exactly.

A `WireRequest` is a request as a client would write it, with the facts that make it unambiguous as
fields: no line ends outside the body, no space in the method or path, distinct header names, and a
`Content-Length` that is the decimal length of the body.  `render` is its text on the wire.

Reading back: one run of the parser over `render r ++ tail` consumes `render r` and nothing else,
and leaves `r` in `request()` (`run_render`).  Repeating `parse`, `request()`, `reset()` therefore
takes a concatenation of renderings apart again, whatever follows it.
-/
import LightNet.Http.ParserQueue
import Mathlib.Data.List.TakeWhile

namespace LightNet.Http

open LightNet.Foundation LightNet.Core
open Buffer (searchCrlf)

/-! ## Requests on the wire -/

/-- No byte of a line end. -/
def NoEol (xs : Bytes) : Prop := ∀ c ∈ xs, c ≠ 13 ∧ c ≠ 10

/-- Header names that differ at most in case. -/
def SameName (a b : Bytes) : Prop := a.map tolower = b.map tolower

/-- `ds` is a decimal rendering of `n`. -/
def IsDecimal (ds : Bytes) (n : Nat) : Prop :=
  ds ≠ [] ∧ (∀ d ∈ ds, isdigit d = true) ∧ decimalValue ds = n

/-- Nothing that the parser would skip. -/
def NoLeadingSpace (xs : Bytes) : Prop := ∀ c ∈ xs.head?, isspace c = false

-- The instances walk the list; one that walks all bytes is found otherwise.
instance (xs : Bytes) : Decidable (NoEol xs) := List.decidableBAll (fun c => c ≠ 13 ∧ c ≠ 10) xs

instance (a b : Bytes) : Decidable (SameName a b) := inferInstanceAs (Decidable (_ = _))

instance (ds : Bytes) (n : Nat) : Decidable (IsDecimal ds n) :=
  @instDecidableAnd _ _ inferInstance
    (@instDecidableAnd _ _ (List.decidableBAll (fun d => isdigit d = true) ds) inferInstance)

instance : (xs : Bytes) → Decidable (NoLeadingSpace xs)
  | [] => isTrue (by simp [NoLeadingSpace])
  | c :: xs => decidable_of_iff (isspace c = false) (by simp [NoLeadingSpace])

/-- A well-formed request. -/
structure WireRequest where
  method : Bytes
  path : Bytes
  version : Bytes
  headers : List (Bytes × Bytes)
  body : Bytes
  method_noEol : NoEol method
  method_noSpace : 32 ∉ method
  path_noEol : NoEol path
  path_noSpace : 32 ∉ path
  path_slash : path.head? = some 47
  version_noEol : NoEol version
  version_http : version.take 5 = kHttpSlash
  version_length : 8 ≤ version.length
  names_noEol : ∀ h ∈ headers, NoEol h.1
  names_noColon : ∀ h ∈ headers, 58 ∉ h.1
  names_distinct : (headers.map fun h => h.1.map tolower).Nodup
  values_noEol : ∀ h ∈ headers, NoEol h.2
  values_noSpace : ∀ h ∈ headers, NoLeadingSpace h.2
  framing : (∃ h ∈ headers, SameName h.1 kContentLength ∧ IsDecimal h.2 body.length
        ∧ body.length < 2 ^ 64)
      ∨ (∀ h ∈ headers, ¬ SameName h.1 kContentLength) ∧ body = []

namespace WireRequest

/-- The first line of a request. -/
def startLine (r : WireRequest) : Bytes := r.method ++ 32 :: (r.path ++ 32 :: r.version)

/-- The line of a header. -/
def headerLine (h : Bytes × Bytes) : Bytes := h.1 ++ 58 :: 32 :: h.2

/-- `METHOD SP path SP version CRLF (name ': ' value CRLF)* CRLF body`. -/
def render (r : WireRequest) : Bytes :=
  r.startLine ++ crlf ++ r.headers.flatMap (fun h => headerLine h ++ crlf) ++ crlf ++ r.body

/-- The parsed request says what the rendered one said. -/
structure Recovers (req : HttpRequest) (r : WireRequest) : Prop where
  method_eq : req.method = r.method
  path_eq : req.path = r.path
  version_eq : req.version = r.version
  headers_eq : ∀ name, req.headers.lookup name = r.headers.lookup name
  body_eq : req.body = r.body

end WireRequest

namespace HttpParser

open WireRequest

/-! ## Single lines -/

theorem splitAtFirst_append {c : UInt8} {a : Bytes} (h : c ∉ a) (b : Bytes) :
    splitAtFirst c (a ++ c :: b) = some (a, b) := by
  induction a with
  | nil => simp [splitAtFirst]
  | cons x a ih =>
      have hx : x ≠ c := by
        rintro rfl
        exact h List.mem_cons_self
      have ha : c ∉ a := by
        intro ha
        exact h (List.mem_cons_of_mem _ ha)
      rw [List.cons_append, splitAtFirst, if_neg hx, ih ha]
      rfl

/-- A whole line that is accepted is consumed with its line end. -/
theorem run_line {ord : IterOrder Bytes} {p : HttpParser} (hp : p.ReadsLine) {line tail : Bytes}
    (hline : 13 ∉ line) (hok : (p.onLine ord line).1.state ≠ .kError) :
    (consumer ord).run (p, none) (line ++ crlf ++ tail)
      = (consumer ord).run (p.onLine ord line) tail := by
  have hassoc : line ++ crlf ++ tail = line ++ 13 :: 10 :: tail := by simp [crlf]
  have hdrop : (line ++ 13 :: 10 :: tail).drop (line.length + 2) = tail := by
    rw [List.drop_append, List.drop_eq_nil_of_le (by omega), Nat.add_sub_cancel_left]
    rfl
  apply run_of_advance
  rw [hassoc, advance_of_readsLine ord hp, searchCrlf_line hline, Option.map_some, List.take_left' rfl,
    if_neg hok, hdrop]

/-- The parser after the start line of `r`. -/
def afterStart (r : WireRequest) : HttpParser where
  state := .kHeaders
  request := { method := r.method, path := r.path, version := r.version }

theorem onLine_start (ord : IterOrder Bytes) (r : WireRequest) :
    new.onLine ord r.startLine = (afterStart r, none) := by
  have hpath : r.path ≠ [] := by
    intro h
    have := r.path_slash
    rw [h] at this
    exact absurd this (by simp)
  have hversion : ¬ (r.version.length < 8 ∨ r.version.take 5 ≠ kHttpSlash) := by
    rw [not_or, not_not]
    exact ⟨Nat.not_lt.mpr r.version_length, r.version_http⟩
  have hslash : ¬ (r.path = [] ∨ r.path.head? ≠ some 47) := by
    rw [not_or, not_not]
    exact ⟨hpath, r.path_slash⟩
  have hparse : new.parseStartLine r.startLine
      = (true, { new with
          request := { method := r.method, path := r.path, version := r.version } }) := by
    simp only [parseStartLine, startLine, splitAtFirst_append r.method_noSpace,
      splitAtFirst_append r.path_noSpace, if_neg hversion, if_neg hslash]
    rfl
  have hstate : new.state = .kStartLine := rfl
  simp only [onLine, hstate, hparse]
  rfl

/-- The parser with one more header stored. -/
def store (p : HttpParser) (h : Bytes × Bytes) : HttpParser :=
  { p with
    request := { p.request with headers := UnorderedMap.assign h.1 h.2 p.request.headers }
    keepAlive := if h.1 = kConnection ∨ h.1 = kConnectionLower then h.2 != kClose else p.keepAlive }

theorem onLine_header (ord : IterOrder Bytes) {p : HttpParser} (hp : p.state = .kHeaders)
    {h : Bytes × Bytes} (hcolon : 58 ∉ h.1) (hspace : ∀ c ∈ h.2.head?, isspace c = false) :
    p.onLine ord (headerLine h) = (p.store h, none) := by
  have hvalue : (32 :: h.2).dropWhile isspace = h.2 := by
    rw [List.dropWhile_cons_of_pos (by decide)]
    cases hv : h.2 with
    | nil => rfl
    | cons c rest =>
        have hc := hspace c (by simp [hv])
        rw [List.dropWhile_cons_of_neg (by simp [hc])]
  have hne : headerLine h ≠ [] := by simp [headerLine]
  have hparse : p.parseHeaderLine (headerLine h) = (true, p.store h) := by
    simp only [parseHeaderLine, headerLine, splitAtFirst_append hcolon, hvalue, store]
    split <;> rfl
  simp only [onLine, hp, hne, if_false, hparse]

/-! ## The header block -/

theorem foldl_store_frame (p : HttpParser) (hs : List (Bytes × Bytes)) :
    (hs.foldl store p).state = p.state
      ∧ (hs.foldl store p).request.method = p.request.method
      ∧ (hs.foldl store p).request.path = p.request.path
      ∧ (hs.foldl store p).request.version = p.request.version
      ∧ (hs.foldl store p).request.body = p.request.body := by
  induction hs generalizing p with
  | nil => exact ⟨rfl, rfl, rfl, rfl, rfl⟩
  | cons h hs ih => exact ih (p.store h)

/-- With distinct names, the stored headers are the list that was read. -/
theorem foldl_store_lookup {hs : List (Bytes × Bytes)} (hnd : (hs.map Prod.fst).Nodup)
    (p : HttpParser) (name : Bytes) :
    (hs.foldl store p).request.headers.lookup name
      = (hs.lookup name).or (p.request.headers.lookup name) := by
  induction hs generalizing p with
  | nil => rfl
  | cons h hs ih =>
      obtain ⟨n, v⟩ := h
      rw [List.map_cons, List.nodup_cons] at hnd
      rw [List.foldl_cons, ih hnd.2]
      by_cases hn : name = n
      · subst hn
        have habsent : hs.lookup name = none := by
          rw [List.lookup_eq_none_iff]
          intro e he
          have : e.1 ≠ name := by
            intro h
            exact hnd.1 (List.mem_map.mpr ⟨e, he, h⟩)
          simp [Ne.symm this]
        simp [habsent, store]
      · rw [List.lookup_cons, beq_false_of_ne hn]
        simp only [store, UnorderedMap.lookup_assign_ne hn]

theorem run_headers {ord : IterOrder Bytes} {hs : List (Bytes × Bytes)}
    (hname : ∀ h ∈ hs, NoEol h.1) (hcolon : ∀ h ∈ hs, 58 ∉ h.1) (hvalue : ∀ h ∈ hs, NoEol h.2)
    (hspace : ∀ h ∈ hs, NoLeadingSpace h.2) {p : HttpParser}
    (hp : p.state = .kHeaders) (rest : Bytes) :
    (consumer ord).run (p, none) (hs.flatMap (fun h => headerLine h ++ crlf) ++ rest)
      = (consumer ord).run (hs.foldl store p, none) rest := by
  -- on the headers: each line is consumed whole and leaves the parser in `kHeaders`
  induction hs generalizing p with
  | nil => rfl
  | cons h hs ih =>
      simp only [List.mem_cons, forall_eq_or_imp] at hname hcolon hvalue hspace
      have honline := onLine_header ord hp hcolon.1 hspace.1
      have hline : 13 ∉ headerLine h := by
        simp only [headerLine, List.mem_append, List.mem_cons, not_or]
        exact ⟨fun hm => (hname.1 13 hm).1 rfl, by decide, by decide,
          fun hm => (hvalue.1 13 hm).1 rfl⟩
      have hstate : (p.store h).state = .kHeaders := hp
      have hok : (p.onLine ord (headerLine h)).1.state ≠ .kError := by
        rw [honline, hstate]
        decide
      rw [List.flatMap_cons, List.append_assoc, run_line (.inr hp) hline hok, honline,
        List.foldl_cons]
      exact ih hname.2 hcolon.2 hvalue.2 hspace.2 hstate

/-! ## The blank line and the body -/

theorem isspace_of_isdigit {d : UInt8} (h : isdigit d = true) : isspace d = false := by
  have hd : 48 ≤ d ∧ d ≤ 57 := by simpa [isdigit] using h
  simp only [isspace, Bool.or_eq_false_iff, beq_eq_false_iff_ne, Bool.and_eq_false_imp,
    decide_eq_true_eq, decide_eq_false_iff_not]
  constructor
  · rintro rfl
    exact absurd hd.1 (by decide)
  · intro _ hle
    exact absurd (UInt8.le_trans hd.1 hle) (by decide)

theorem takeSign_of_isdigit {d : UInt8} (h : isdigit d = true) (rest : Bytes) :
    takeSign (d :: rest) = (false, d :: rest) := by
  unfold takeSign
  split
  · rename_i heq
    obtain ⟨rfl, rfl⟩ := List.cons.inj heq
    exact absurd h (by decide)
  · rename_i heq
    obtain ⟨rfl, rfl⟩ := List.cons.inj heq
    exact absurd h (by decide)
  · rfl

/-- `stoul` reads digits between spaces as the number they stand for. -/
theorem stoul_spaced {lead ds trail : Bytes} {n : Nat} (hlead : ∀ c ∈ lead, isspace c = true)
    (htrail : ∀ c ∈ trail, isspace c = true) (h : IsDecimal ds n) (hn : n < 2 ^ 64) :
    stoul (lead ++ (ds ++ trail)) = .ok n := by
  obtain ⟨hne, hdigits, hvalue⟩ := h
  obtain ⟨d, rest, rfl⟩ := List.exists_cons_of_ne_nil hne
  have hd : isdigit d = true := hdigits d List.mem_cons_self
  have hspace : (lead ++ (d :: rest ++ trail)).dropWhile isspace = d :: rest ++ trail := by
    rw [List.dropWhile_append_of_pos hlead, List.cons_append,
      List.dropWhile_cons_of_neg (by simp [isspace_of_isdigit hd])]
  -- what follows the digits is a space, hence no digit
  have hstop : trail.takeWhile isdigit = [] := by
    cases trail with
    | nil => rfl
    | cons c trail =>
        have hc := htrail c List.mem_cons_self
        apply List.takeWhile_cons_of_neg
        intro hdigit
        exact absurd (hc.symm.trans (isspace_of_isdigit hdigit)) (by decide)
  have hall : (d :: rest ++ trail).takeWhile isdigit = d :: rest := by
    rw [List.takeWhile_append_of_pos hdigits, hstop, List.append_nil]
  have hsign : takeSign (d :: rest ++ trail) = (false, d :: rest ++ trail) :=
    takeSign_of_isdigit hd (rest ++ trail)
  simp only [stoul, hspace, hsign, hall, if_neg hne, hvalue, if_neg (Nat.not_le.mpr hn)]
  simp

theorem stoul_decimal {ds : Bytes} {n : Nat} (h : IsDecimal ds n) (hn : n < 2 ^ 64) :
    stoul ds = .ok n := by
  have hspaced := @stoul_spaced [] ds [] n (by simp) (by simp) h hn
  rwa [List.nil_append, List.append_nil] at hspaced

/-- A blank line with no declared body completes the request. -/
theorem run_blank_complete {ord : IterOrder Bytes} {p : HttpParser} (hp : p.state = .kHeaders)
    (hcl : p.request.getHeader ord kContentLength = []) (rest : Bytes) :
    (consumer ord).run (p, none) (crlf ++ rest) = (({ p with state := .kComplete }, none), rest) := by
  have hblank : p.onLine ord [] = ({ p with state := .kComplete }, none) := by
    simp only [onLine, hp, hcl, if_true]
  have hline : (consumer ord).run (p, none) ([] ++ crlf ++ rest)
      = (consumer ord).run (p.onLine ord []) rest :=
    run_line (.inr hp) (by simp) (by rw [hblank]; simp)
  rw [List.nil_append, hblank] at hline
  rw [hline]
  exact Consumer.run_of_final (final_of_complete rfl) rest

/-- A blank line that declares a body, followed by that body, completes the request. -/
theorem run_blank_body {ord : IterOrder Bytes} {p : HttpParser} (hp : p.state = .kHeaders)
    {value body : Bytes} (hcl : p.request.getHeader ord kContentLength = value) (hne : value ≠ [])
    (hlen : stoul value = .ok body.length) (rest : Bytes) :
    (consumer ord).run (p, none) (crlf ++ (body ++ rest))
      = ((onBody { p with contentLength := body.length } body, none), rest) := by
  have hblank : p.onLine ord []
      = ({ p with contentLength := body.length, state := .kBody }, none) := by
    simp only [onLine, hp, hcl, hne, if_true, if_false, hlen]
  have hline : (consumer ord).run (p, none) ([] ++ crlf ++ (body ++ rest))
      = (consumer ord).run (p.onLine ord []) (body ++ rest) :=
    run_line (.inr hp) (by simp) (by rw [hblank]; simp)
  rw [List.nil_append, hblank] at hline
  have hbody : advance ord ({ p with contentLength := body.length, state := .kBody }, none)
      (body ++ rest) = some ((onBody { p with contentLength := body.length } body, none), rest) := by
    rw [advance_of_body rfl, if_neg (by simp), List.take_left' rfl, List.drop_left' rfl]
    rfl
  rw [hline, run_of_advance hbody]
  exact Consumer.run_of_final (final_of_complete rfl) rest

/-! ## One request -/

/-- The parser after the header block, which still has to see the blank line. -/
def afterHeaders (r : WireRequest) : HttpParser := r.headers.foldl store (afterStart r)

theorem names_nodup (r : WireRequest) : (r.headers.map Prod.fst).Nodup := by
  have h := r.names_distinct
  rw [show (fun h : Bytes × Bytes => h.1.map tolower) = List.map tolower ∘ Prod.fst from rfl,
    ← List.map_map] at h
  exact h.of_map

theorem afterHeaders_lookup (r : WireRequest) (name : Bytes) :
    (afterHeaders r).request.headers.lookup name = r.headers.lookup name := by
  rw [afterHeaders, foldl_store_lookup (names_nodup r)]
  exact Option.or_none

theorem mem_of_lookup {hs : List (Bytes × Bytes)} {n v : Bytes} (h : hs.lookup n = some v) :
    (n, v) ∈ hs := by
  induction hs with
  | nil => exact absurd h (by simp)
  | cons e hs ih =>
      obtain ⟨a, b⟩ := e
      rw [List.lookup_cons] at h
      split at h
      · rename_i heq
        obtain rfl := Option.some.inj h
        rw [beq_iff_eq.mp heq]
        exact List.mem_cons_self
      · exact List.mem_cons_of_mem _ (ih h)

theorem lookup_of_mem {hs : List (Bytes × Bytes)} (hnd : (hs.map Prod.fst).Nodup) {n v : Bytes}
    (h : (n, v) ∈ hs) : hs.lookup n = some v := by
  induction hs with
  | nil => exact absurd h (by simp)
  | cons e hs ih =>
      obtain ⟨a, b⟩ := e
      rw [List.map_cons, List.nodup_cons] at hnd
      rcases List.mem_cons.mp h with heq | hmem
      · obtain ⟨rfl, rfl⟩ := Prod.mk.inj heq
        simp
      · have hne : n ≠ a := by
          rintro rfl
          exact hnd.1 (List.mem_map.mpr ⟨(n, v), hmem, rfl⟩)
        rw [List.lookup_cons, beq_false_of_ne hne]
        exact ih hnd.2 hmem

/-- **One request.** A run over a rendered request completes it, whatever follows, and leaves
exactly what follows. -/
theorem run_render (ord : IterOrder Bytes) (r : WireRequest) (tail : Bytes) :
    ∃ q : HttpParser, (consumer ord).run (new, none) (r.render ++ tail) = ((q, none), tail)
      ∧ q.state = .kComplete ∧ Recovers q.request r := by
  have hstart : 13 ∉ r.startLine := by
    simp only [startLine, List.mem_append, List.mem_cons, not_or]
    exact ⟨fun h => (r.method_noEol 13 h).1 rfl, by decide, fun h => (r.path_noEol 13 h).1 rfl,
      by decide, fun h => (r.version_noEol 13 h).1 rfl⟩
  have hok : (new.onLine ord r.startLine).1.state ≠ .kError := by
    rw [onLine_start]
    simp [afterStart]
  have hhead : (consumer ord).run (new, none) (r.render ++ tail)
      = (consumer ord).run (afterHeaders r, none) (crlf ++ (r.body ++ tail)) := by
    simp only [render, List.append_assoc]
    rw [← List.append_assoc r.startLine, run_line (.inl rfl) hstart hok, onLine_start, run_headers
        r.names_noEol r.names_noColon r.values_noEol r.values_noSpace rfl, afterHeaders]
  obtain ⟨hstate, hmethod, hpath, hversion, hbody⟩ := foldl_store_frame (afterStart r) r.headers
  rcases r.framing with ⟨h, hmem, hname, hdec, hlt⟩ | ⟨hno, hempty⟩
  · -- a declared body: `stoul` gives its length and the body is taken
    have hlook : (afterHeaders r).request.headers.lookup h.1 = some h.2 := by
      rw [afterHeaders_lookup]
      exact lookup_of_mem (names_nodup r) hmem
    have hvalue : (afterHeaders r).request.getHeader ord kContentLength = h.2 := by
      apply HttpRequest.getHeader_eq hlook hname
      intro n w hlook hn
      rw [afterHeaders_lookup] at hlook
      have hsame : (n, w) = h := List.inj_on_of_nodup_map r.names_distinct
        (mem_of_lookup hlook) hmem (hn.trans hname.symm)
      rw [← hsame]
    refine ⟨onBody { afterHeaders r with contentLength := r.body.length } r.body, ?_, rfl,
      ⟨hmethod, hpath, hversion, afterHeaders_lookup r, rfl⟩⟩
    rw [hhead]
    exact run_blank_body hstate hvalue hdec.1 (stoul_decimal hdec hlt) tail
  · -- no such header: the request is complete at the blank line
    have hvalue : (afterHeaders r).request.getHeader ord kContentLength = [] := by
      apply HttpRequest.getHeader_of_absent
      intro n w hlook
      rw [afterHeaders_lookup] at hlook
      exact hno (n, w) (mem_of_lookup hlook)
    refine ⟨{ afterHeaders r with state := .kComplete }, ?_, rfl,
      ⟨hmethod, hpath, hversion, afterHeaders_lookup r, hbody.trans hempty.symm⟩⟩
    rw [hhead, hempty, List.nil_append]
    exact run_blank_complete hstate hvalue tail

/-! ## Repeating `parse`, `request()`, `reset()` -/

/-- Up to `n` requests off one buffer: `parse`, take `request()`, `reset()`.  Stops early where a
call does not complete. -/
def takeRequests (ord : IterOrder Bytes) : Nat → HttpParser → Buffer → List HttpRequest × Buffer
  | 0, _, buf => ([], buf)
  | n + 1, p, buf =>
      let r := p.parse ord buf
      if r.thrown = none ∧ r.parser.state = .kComplete then
        let rest := takeRequests ord n r.parser.reset r.buf
        (r.parser.request :: rest.1, rest.2)
      else ([], r.buf)

/-- **Pipelined requests are recovered exactly.** From a buffer that holds the renderings of a list
of well-formed requests and any tail, repeating `parse`, `request()`, `reset()` takes out exactly
those requests, in order, and leaves exactly the tail. -/
theorem takeRequests_render (ord : IterOrder Bytes) (reqs : List WireRequest) (tail : Bytes)
    {buf : Buffer} (hinv : buf.Inv) (hbuf : buf.readable = reqs.flatMap render ++ tail) :
    List.Forall₂ Recovers (takeRequests ord reqs.length new buf).1 reqs
      ∧ (takeRequests ord reqs.length new buf).2.readable = tail := by
  -- on the requests: `reset` makes the parser a new one, and the buffer holds the others
  induction reqs generalizing buf with
  | nil => exact ⟨.nil, hbuf⟩
  | cons r reqs ih =>
      rw [List.flatMap_cons, List.append_assoc] at hbuf
      obtain ⟨q, hrun, hcomplete, hrecovers⟩ := run_render ord r (reqs.flatMap render ++ tail)
      have hagrees := parse_agrees ord (p := new) hinv
      rw [hbuf, hrun] at hagrees
      obtain ⟨hparser, hthrown⟩ := Prod.mk.inj hagrees.state_eq
      have hdone : (new.parse ord buf).thrown = none
          ∧ (new.parse ord buf).parser.state = .kComplete := ⟨hthrown, by rw [hparser, hcomplete]⟩
      have hreset : (new.parse ord buf).parser.reset = new := rfl
      obtain ⟨hrest, htail⟩ := ih hagrees.inv hagrees.readable_eq
      simp only [List.length_cons, takeRequests, if_pos hdone, hreset]
      exact ⟨.cons (by rw [hparser]; exact hrecovers) hrest, htail⟩

/-- `GET / HTTP/1.1`, without headers. -/
def getRoot : WireRequest where
  method := ascii ['G', 'E', 'T']
  path := [47]
  version := kHttp11
  headers := []
  body := []
  method_noEol := by decide
  method_noSpace := by decide
  path_noEol := by decide
  path_noSpace := by decide
  path_slash := rfl
  version_noEol := by decide
  version_http := by decide
  version_length := by decide
  names_noEol := by decide
  names_noColon := by decide
  names_distinct := by decide
  values_noEol := by decide
  values_noSpace := by decide
  framing := by decide

/-- A request whose body is a line end. -/
def postLine : WireRequest where
  method := ascii ['P', 'O', 'S', 'T']
  path := [47, 97]
  version := kHttp11
  headers := [(kConnection, kClose), (kContentLength, [50])]
  body := crlf
  method_noEol := by decide
  method_noSpace := by decide
  path_noEol := by decide
  path_noSpace := by decide
  path_slash := rfl
  version_noEol := by decide
  version_http := by decide
  version_length := by decide
  names_noEol := by decide
  names_noColon := by decide
  names_distinct := by decide
  values_noEol := by decide
  values_noSpace := by decide
  framing := by decide

theorem takeRequests_render_sample :
    (takeRequests (IterOrder.entries Bytes) 2 new
      (Buffer.new.append ([postLine, getRoot].flatMap render ++ [71]))).2.readable = [71] := by
  have hfits : Buffer.new.Fits ([postLine, getRoot].flatMap render ++ [71]).length :=
    Buffer.Fits.of_le (by decide +kernel)
  exact (takeRequests_render (IterOrder.entries Bytes) [postLine, getRoot] [71]
    (Buffer.append_inv Buffer.new_inv hfits) (Buffer.append_readable Buffer.new_inv hfits)).2

end HttpParser

end LightNet.Http
