/-
# LightNet.Http.HeaderOrder — when a header lookup depends on the hash order.

`get_header` takes the exact name where it is stored, and else the first name in iteration order that
is the same up to case.  So the order shows exactly where a name that is not stored has two spellings
that are, with two values: each of them is found first in some order.  `Unambiguous` rules this out,
and `orderFree_iff` says that nothing else has to be ruled out, for lookups and for the body length
that `parse` takes at the blank line.
-/
import LightNet.Http.Section

namespace LightNet.Http

open LightNet.Foundation LightNet.Core

/-- A name that is not itself stored has one value, however it is spelled. -/
def Unambiguous (fields : List (Bytes × Bytes)) : Prop :=
  ∀ key, fields.reverse.lookup key = none → ∀ a b v w, SameName a key → SameName b key →
    fields.reverse.lookup a = some v → fields.reverse.lookup b = some w → v = w

namespace HttpParser

/-- `parse_header_line` on one line after the other, as long as it accepts them. -/
def readLines : HttpParser → List Bytes → Option HttpParser
  | p, [] => some p
  | p, line :: lines =>
      match p.parseHeaderLine line with
      | (false, _) => none
      | (true, p) => readLines p lines

/-- Nothing that the code does with the headers depends on the order in which they are walked. -/
structure OrderFree (q : HttpParser) : Prop where
  lookup : ∀ (ord ord' : IterOrder Bytes) key d,
    q.request.getHeader ord key d = q.request.getHeader ord' key d
  /-- At the blank line: the declared length, and all that follows from it. -/
  parse : ∀ (ord ord' : IterOrder Bytes) (buf : Buffer), buf.findCrlf = some 0 →
    q.parse ord buf = q.parse ord' buf

/-- Lines that are accepted store their fields. -/
theorem readLines_eq {p q : HttpParser} {lines : List Bytes} (h : readLines p lines = some q) :
    q = (lines.filterMap headerField).foldl store p := by
  induction lines generalizing p with
  | nil => exact (Option.some.inj h).symm
  | cons line lines ih =>
      rw [readLines, parseHeaderLine_eq] at h
      cases hfield : headerField line with
      | none =>
          rw [hfield] at h
          cases h
      | some f =>
          rw [hfield] at h
          rw [List.filterMap_cons_some hfield, List.foldl_cons]
          exact ih h

/-! ## Behind the blank line -/

/-- Behind the blank line the order is not asked any more. -/
theorem parseLoop_behind {ord ord' : IterOrder Bytes} (fuel : Nat) {p : HttpParser}
    (hp : p.state = .kBody ∨ p.state = .kComplete) (buf : Buffer) :
    parseLoop ord fuel p buf = parseLoop ord' fuel p buf := by
  induction fuel generalizing p buf with
  | zero => rfl
  | succ fuel ih =>
      rcases hp with hp | hp
      · simp only [parseLoop, hp]
        split
        · rfl
        · exact ih (.inr rfl) _
      · simp only [parseLoop, hp]

/-- At the blank line the order decides the declared length, and nothing else. -/
theorem parseLoop_blank_congr {ord ord' : IterOrder Bytes} (fuel : Nat) {q : HttpParser}
    (hq : q.state = .kHeaders)
    (hcl : q.request.getHeader ord kContentLength = q.request.getHeader ord' kContentLength)
    {buf : Buffer} (hblank : buf.findCrlf = some 0) :
    parseLoop ord (fuel + 1) q buf = parseLoop ord' (fuel + 1) q buf := by
  simp only [parseLoop, hq, hblank, hcl]
  split
  · apply parseLoop_behind
    exact .inr rfl
  · split
    · rfl
    · apply parseLoop_behind
      exact .inl rfl

/-! ## The order of the entries -/

/-- With one value for each name the order does not show. -/
theorem getHeader_congr_order {req : HttpRequest} {fields : List (Bytes × Bytes)}
    (hreq : ∀ name, req.headers.lookup name = fields.reverse.lookup name) (h : Unambiguous fields)
    (ord ord' : IterOrder Bytes) (key d : Bytes) :
    req.getHeader ord key d = req.getHeader ord' key d := by
  cases hexact : req.headers.lookup key with
  | some v => simp only [HttpRequest.getHeader, hexact]
  | none =>
      by_cases hany : ∃ a v, req.headers.lookup a = some v ∧ SameName a key
      · -- some spelling is stored, and every order finds its value
        obtain ⟨a, v, hlook, ha⟩ := hany
        have huniq : ∀ n w, req.headers.lookup n = some w → n.map tolower = key.map tolower → w = v := by
          intro n w hn hsame
          rw [hreq] at hexact hlook hn
          exact h key hexact n a w v hsame ha hn hlook
        rw [HttpRequest.getHeader_eq hlook ha huniq, HttpRequest.getHeader_eq hlook ha huniq]
      · have habsent : ∀ n w, req.headers.lookup n = some w → n.map tolower ≠ key.map tolower := by
          intro n w hn hsame
          exact hany ⟨n, w, hn, hsame⟩
        rw [HttpRequest.getHeader_of_absent habsent, HttpRequest.getHeader_of_absent habsent]

/-- In the order that puts a spelling first, its value is found. -/
theorem getHeader_first {req : HttpRequest} {a key v : Bytes} (hkey : req.headers.lookup key = none)
    (ha : req.headers.lookup a = some v) (hsame : SameName a key) (d : Bytes) :
    req.getHeader (IterOrder.first a) key d = v := by
  have hfind := UnorderedMap.find?_iterate_first ha
    (P := fun kv => keyMatch kv.1 key) (keyMatch_iff.mpr hsame)
  simp only [HttpRequest.getHeader, hkey, hfind]

/-- **When header lookup does not depend on the hash order.** From a parser that stands in front of
its header lines, the lines it accepts leave headers that every iteration order reads alike, in
`get_header` and in `parse` at the blank line, exactly when no name that is not itself stored has two
spellings with different values. -/
theorem orderFree_iff {p q : HttpParser} {lines : List Bytes} (hp : p.state = .kHeaders)
    (hnew : p.request.headers = ∅) (hread : readLines p lines = some q) :
    OrderFree q ↔ Unambiguous (lines.filterMap headerField) := by
  obtain rfl := readLines_eq hread
  have hstate := (foldl_store_frame p (lines.filterMap headerField)).1
  have hlook : ∀ name, ((lines.filterMap headerField).foldl store p).request.headers.lookup name
      = (lines.filterMap headerField).reverse.lookup name := by
    intro name
    rw [foldl_store_lookup_last, hnew]
    exact Option.or_none
  constructor
  · intro hfree key hkey a b v w hva hvb ha hb
    rw [← hlook] at hkey ha hb
    -- one order finds the one spelling, another the other
    have horders := hfree.lookup (IterOrder.first a) (IterOrder.first b) key []
    rwa [getHeader_first hkey ha hva, getHeader_first hkey hb hvb] at horders
  · intro h
    have hgets := getHeader_congr_order hlook h
    exact ⟨hgets, fun ord ord' _ hblank =>
      parseLoop_blank_congr _ (hstate.trans hp) (hgets ord ord' kContentLength []) hblank⟩

/-- Two lengths, under two spellings neither of which is the one that is looked up. -/
def twoLengths : List Bytes :=
  [kContentLength.map tolower ++ [58, 49], 67 :: (kContentLength.map tolower).tail ++ [58, 50]]

/-- The parser that has read them behind `GET / HTTP/1.1`. -/
def twoLengthsRead : HttpParser :=
  (twoLengths.filterMap headerField).foldl store (afterStart getRoot)

theorem twoLengths_read : readLines (afterStart getRoot) twoLengths = some twoLengthsRead := rfl

theorem twoLengths_lookup :
    twoLengthsRead.request.getHeader (IterOrder.entries Bytes) kContentLength
      ≠ twoLengthsRead.request.getHeader (IterOrder.reversed Bytes) kContentLength := by
  decide +kernel

theorem twoLengths_parse :
    (twoLengthsRead.parse (IterOrder.entries Bytes) (Buffer.new.append crlf)).parser.contentLength
      ≠ (twoLengthsRead.parse (IterOrder.reversed Bytes) (Buffer.new.append crlf)).parser.contentLength := by
  decide +kernel

theorem orderFree_iff_sample : ¬ Unambiguous (twoLengths.filterMap headerField) := by
  intro h
  have hfree := (orderFree_iff rfl rfl twoLengths_read).mpr h
  exact twoLengths_lookup (hfree.lookup _ _ kContentLength [])

/-- **The order shows.** Two accepted spellings of `Content-Length` with two values: the lookup and the
length of the body depend on which entry is walked first. -/
theorem lookup_depends_on_order :
    ∃ q, readLines (afterStart getRoot) twoLengths = some q
      ∧ (∃ ord ord' key, q.request.getHeader ord key ≠ q.request.getHeader ord' key)
      ∧ ∃ ord ord' buf, buf.findCrlf = some 0
          ∧ (q.parse ord buf).parser.contentLength ≠ (q.parse ord' buf).parser.contentLength :=
  ⟨twoLengthsRead, twoLengths_read, ⟨_, _, _, twoLengths_lookup⟩,
    ⟨_, _, _, by decide +kernel, twoLengths_parse⟩⟩

end HttpParser

end LightNet.Http
