/-
# LightNet.Http.Client — what a client reads on the wire.

A client that knows HTTP reads a response without the server's help: the status line, header lines up
to the blank one, and as many bytes of body as `Content-Length` says.  `readReply` is such a reader.
On a response that is `Sendable` — no line end in its head, and `Content-Length` as `set_body` has set
it — the text of `serialize` is read back whole, whatever follows it.

So the responses of a connection can be told apart on the wire, and with `answers_in_order` the
client's n-th reply is the server's answer to the n-th request it has sent.
-/
import LightNet.Http.Responses
import Mathlib.Data.List.Infix

namespace LightNet.Http

open LightNet.Foundation LightNet.Core LightNet.Net LightNet.Coro
open Buffer (searchCrlf)

/-! ## The reader -/

/-- What a client makes of one response. -/
structure Reply where
  status : Bytes
  fields : List (Bytes × Bytes)
  body : Bytes
  deriving DecidableEq

/-- Header lines up to the blank line. -/
def readFields : Nat → Bytes → Option (List (Bytes × Bytes) × Bytes)
  | 0, _ => none
  | fuel + 1, xs =>
      match searchCrlf xs with
      | none => none
      | some 0 => some ([], xs.drop 2)
      | some crlf =>
          match headerField (xs.take crlf) with
          | none => none
          | some f => (readFields fuel (xs.drop (crlf + 2))).map fun r => (f :: r.1, r.2)

/-- The length of the body that some fields declare. -/
def bodyLength (fields : List (Bytes × Bytes)) : Option Nat :=
  match fields.find? fun f => SameName f.1 kContentLength with
  | none => none
  | some f => (stoul f.2).toOption

/-- One response off the front of the bytes that have come. -/
def readReply (xs : Bytes) : Option (Reply × Bytes) :=
  match searchCrlf xs with
  | none => none
  | some crlf =>
      match readFields xs.length (xs.drop (crlf + 2)) with
      | none => none
      | some (fields, rest) =>
          match bodyLength fields with
          | none => none
          | some n =>
              if rest.length < n then none
              else some ({ status := xs.take crlf, fields, body := rest.take n }, rest.drop n)

theorem readFields_append {fuel fuel' : Nat} (hle : fuel ≤ fuel') {xs rest : Bytes}
    {fields : List (Bytes × Bytes)} (h : readFields fuel xs = some (fields, rest)) (zs : Bytes) :
    readFields fuel' (xs ++ zs) = some (fields, rest ++ zs) := by
  induction fuel generalizing fuel' xs fields with
  | zero => exact absurd h nofun
  | succ fuel ih =>
      obtain ⟨fuel', rfl⟩ : ∃ f, fuel' = f + 1 := ⟨fuel' - 1, by omega⟩
      cases hcrlf : searchCrlf xs with
      | none =>
          simp only [readFields, hcrlf] at h
          exact absurd h nofun
      | some i =>
          have hlen := searchCrlf_le hcrlf
          have happ := searchCrlf_append hcrlf zs
          cases i with
          | zero =>
              simp only [readFields, hcrlf] at h
              obtain ⟨rfl, rfl⟩ := Prod.mk.inj (Option.some.inj h)
              simp only [readFields, happ, List.drop_append_of_le_length hlen]
          | succ i =>
              simp only [readFields, hcrlf] at h
              simp only [readFields, happ, List.take_append_of_le_length (show i + 1 ≤ xs.length by omega),
                List.drop_append_of_le_length hlen]
              cases hfield : headerField (xs.take (i + 1)) with
              | none =>
                  rw [hfield] at h
                  exact absurd h nofun
              | some f =>
                  rw [hfield] at h
                  obtain ⟨⟨fields', rest'⟩, hrest, heq⟩ := Option.map_eq_some_iff.mp h
                  obtain ⟨rfl, rfl⟩ := Prod.mk.inj heq
                  simp only [ih (show fuel ≤ fuel' by omega) hrest, Option.map_some]

theorem readFields_length_le {fuel : Nat} {xs rest : Bytes} {fields : List (Bytes × Bytes)}
    (h : readFields fuel xs = some (fields, rest)) : rest.length ≤ xs.length := by
  induction fuel generalizing xs fields with
  | zero => exact absurd h nofun
  | succ fuel ih =>
      rw [readFields] at h
      split at h
      · exact absurd h nofun
      · obtain ⟨-, rfl⟩ := Prod.mk.inj (Option.some.inj h)
        rw [List.length_drop]
        exact Nat.sub_le _ _
      · split at h
        · exact absurd h nofun
        · obtain ⟨⟨fields', rest'⟩, hrest, heq⟩ := Option.map_eq_some_iff.mp h
          obtain ⟨-, rfl⟩ := Prod.mk.inj heq
          have hle := ih hrest
          rw [List.length_drop] at hle
          omega

/-! ## What is read -/

/-- What a reply is made of. -/
theorem readReply_eq_some {xs rest : Bytes} {reply : Reply} :
    readReply xs = some (reply, rest) ↔ ∃ crlf fields mid n, searchCrlf xs = some crlf
      ∧ readFields xs.length (xs.drop (crlf + 2)) = some (fields, mid) ∧ bodyLength fields = some n
      ∧ n ≤ mid.length ∧ reply = { status := xs.take crlf, fields, body := mid.take n }
      ∧ rest = mid.drop n := by
  unfold readReply
  constructor
  · intro h
    split at h
    · exact absurd h nofun
    · rename_i crlf hcrlf
      split at h
      · exact absurd h nofun
      · rename_i fields mid hfields
        split at h
        · exact absurd h nofun
        · rename_i n hn
          split at h
          · exact absurd h nofun
          · rename_i hlen
            obtain ⟨rfl, rfl⟩ := Prod.mk.inj (Option.some.inj h)
            exact ⟨crlf, fields, mid, n, hcrlf, hfields, hn, Nat.not_lt.mp hlen, rfl, rfl⟩
  · rintro ⟨crlf, fields, mid, n, hcrlf, hfields, hn, hlen, rfl, rfl⟩
    simp only [hcrlf, hfields, hn, if_neg (Nat.not_lt.mpr hlen)]

theorem readReply_append {xs rest : Bytes} {reply : Reply} (h : readReply xs = some (reply, rest))
    (zs : Bytes) : readReply (xs ++ zs) = some (reply, rest ++ zs) := by
  obtain ⟨crlf, fields, mid, n, hcrlf, hfields, hn, hlen, rfl, rfl⟩ := readReply_eq_some.mp h
  have hle := searchCrlf_le hcrlf
  have hfuel : xs.length ≤ (xs ++ zs).length := by
    rw [List.length_append]
    exact Nat.le_add_right _ _
  have hmid := readFields_append hfuel hfields zs
  refine readReply_eq_some.mpr ⟨crlf, fields, mid ++ zs, n, searchCrlf_append hcrlf zs, ?_, hn, ?_, ?_, ?_⟩
  · rw [List.drop_append_of_le_length hle]
    exact hmid
  · rw [List.length_append]
    omega
  · rw [List.take_append_of_le_length (by omega), List.take_append_of_le_length hlen]
  · rw [List.drop_append_of_le_length hlen]

theorem readReply_lt {xs rest : Bytes} {reply : Reply} (h : readReply xs = some (reply, rest)) :
    rest.length < xs.length := by
  obtain ⟨crlf, fields, mid, n, hcrlf, hfields, -, -, -, rfl⟩ := readReply_eq_some.mp h
  have hle := searchCrlf_le hcrlf
  have hmid := readFields_length_le hfields
  rw [List.length_drop] at hmid ⊢
  omega

/-- **A client**: the replies in the bytes that have come, one after the other. -/
def client : Consumer (List Reply) UInt8 := .collecting readReply readReply_append readReply_lt

/-! ## Responses that can be read back -/

/-- A header that keeps to its line. -/
structure PlainField (f : Bytes × Bytes) : Prop where
  name_noCr : 13 ∉ f.1
  name_noColon : 58 ∉ f.1
  value_noCr : 13 ∉ f.2
  value_noSpace : NoLeadingSpace f.2

/-- A response as the setters build it: the head has no line end of its own, and `Content-Length` is
the length of the body. -/
structure Sendable (resp : HttpResponse) : Prop where
  message_noCr : 13 ∉ resp.statusMessage
  plain : ∀ name value, resp.headers.lookup name = some value → PlainField (name, value)
  declares : resp.headers.lookup kContentLength = some (decimal resp.body.length)
  declares_once : ∀ name value, resp.headers.lookup name = some value →
    SameName name kContentLength → name = kContentLength
  length_lt : resp.body.length < 2 ^ 64

/-- What a client reads in a response. -/
def replyOf (ord : IterOrder Bytes) (resp : HttpResponse) : Reply where
  status := kHttp11 ++ [32] ++ intDecimal resp.statusCode ++ [32] ++ resp.statusMessage
  fields := UnorderedMap.iterate ord resp.headers
  body := resp.body

theorem isdigit_of_mem_decimal {n : Nat} : ∀ d ∈ decimal n, isdigit d = true := by
  intro d hd
  obtain ⟨hlow, hhigh⟩ := mem_decimal hd
  simp only [isdigit, Bool.and_eq_true, decide_eq_true_eq, UInt8.le_iff_toNat_le]
  exact ⟨hlow, hhigh⟩

theorem isDecimal_decimal {n : Nat} (h : n < 2 ^ 64) : IsDecimal (decimal n) n := by
  refine ⟨?_, isdigit_of_mem_decimal, ofDecimal_decimalDigits (lt_of_lt_of_le h (by decide))⟩
  rw [decimal, decimalDigits]
  split
  · exact List.cons_ne_nil _ _
  · exact List.append_ne_nil_of_right_ne_nil _ (List.cons_ne_nil _ _)

theorem notMem_decimal {c : UInt8} (hc : isdigit c = false) (n : Nat) : c ∉ decimal n := fun hmem =>
  absurd ((isdigit_of_mem_decimal c hmem).symm.trans hc) nofun

theorem cr_notMem_intDecimal (n : Int) : 13 ∉ intDecimal n := by
  unfold intDecimal
  split
  · rw [List.mem_cons, not_or]
    exact ⟨by decide, notMem_decimal (by decide) _⟩
  · exact notMem_decimal (by decide) _

theorem headerField_plain {f : Bytes × Bytes} (hf : PlainField f) :
    headerField (f.1 ++ [58, 32] ++ f.2) = some f := by
  have hsplit : f.1 ++ [58, 32] ++ f.2 = f.1 ++ 58 :: 32 :: f.2 := by simp
  have hvalue : (32 :: f.2).dropWhile isspace = f.2 := by
    rw [List.dropWhile_cons_of_pos (by decide)]
    cases hv : f.2 with
    | nil => rfl
    | cons c rest =>
        have hc := hf.value_noSpace c (by rw [hv]; exact rfl)
        rw [List.dropWhile_cons_of_neg (by simp [hc])]
  rw [headerField, hsplit, HttpParser.splitAtFirst_append hf.name_noColon, Option.map_some, hvalue]

/-! ## Reading back -/

/-- Header lines are read back. -/
theorem readFields_lines {fields : List (Bytes × Bytes)} (hplain : ∀ f ∈ fields, PlainField f)
    (tail : Bytes) {fuel : Nat} (hfuel : fields.length < fuel) :
    readFields fuel (fields.flatMap (fun f => f.1 ++ [58, 32] ++ f.2 ++ crlf) ++ (crlf ++ tail))
      = some (fields, tail) := by
  induction fields generalizing fuel with
  | nil =>
      obtain ⟨fuel, rfl⟩ : ∃ k, fuel = k + 1 := ⟨fuel - 1, by omega⟩
      have hblank : searchCrlf (crlf ++ tail) = some 0 := rfl
      simp only [List.flatMap_nil, List.nil_append, readFields, hblank]
      rfl
  | cons f fields ih =>
      obtain ⟨fuel, rfl⟩ : ∃ k, fuel = k + 1 := ⟨fuel - 1, by omega⟩
      have hf := hplain f List.mem_cons_self
      have hrest := ih (fun g hg => hplain g (List.mem_cons_of_mem _ hg))
        (show fields.length < fuel from Nat.lt_of_succ_lt_succ hfuel)
      let line := f.1 ++ [58, 32] ++ f.2
      let others := fields.flatMap (fun f => f.1 ++ [58, 32] ++ f.2 ++ crlf) ++ (crlf ++ tail)
      have hline : 13 ∉ line := by
        simp only [line, List.mem_append, List.mem_cons, List.not_mem_nil, not_or, or_false]
        exact ⟨⟨hf.name_noCr, by decide, by decide⟩, hf.value_noCr⟩
      have htext : (f :: fields).flatMap (fun f => f.1 ++ [58, 32] ++ f.2 ++ crlf) ++ (crlf ++ tail)
          = line ++ 13 :: 10 :: others := by
        simp [line, others, crlf]
      have hcrlf := searchCrlf_line hline others
      obtain ⟨k, hk⟩ : ∃ k, line.length = k + 1 := ⟨line.length - 1, by simp [line]; omega⟩
      have htake : (line ++ 13 :: 10 :: others).take (k + 1) = line := by
        rw [← hk, List.take_left]
      have hdrop : (line ++ 13 :: 10 :: others).drop (k + 1 + 2) = others := by
        rw [← hk, List.drop_append, List.drop_eq_nil_of_le (by omega), Nat.add_sub_cancel_left]
        rfl
      rw [hk] at hcrlf
      simp only [htext, readFields, hcrlf, htake, hdrop, line, headerField_plain hf]
      rw [show readFields fuel others = some (fields, tail) from hrest, Option.map_some]

/-- The declared length of a sendable response is found among its fields. -/
theorem Sendable.bodyLength {resp : HttpResponse} (h : Sendable resp) (ord : IterOrder Bytes) :
    bodyLength (UnorderedMap.iterate ord resp.headers) = some resp.body.length := by
  have hmem : ∀ f, f ∈ UnorderedMap.iterate ord resp.headers ↔ resp.headers.lookup f.1 = some f.2 :=
    fun f => (UnorderedMap.iterate_perm ord resp.headers).mem_iff.trans UnorderedMap.mem_pairs_iff
  unfold Http.bodyLength
  cases hfind : (UnorderedMap.iterate ord resp.headers).find? fun f => SameName f.1 kContentLength with
  | none =>
      have hno := List.find?_eq_none.mp hfind _ ((hmem (kContentLength, _)).mpr h.declares)
      exact absurd (decide_eq_true rfl) hno
  | some f =>
      have hlookup := (hmem f).mp (List.mem_of_find?_eq_some hfind)
      have hsame := List.find?_some hfind
      have hname := h.declares_once f.1 f.2 hlookup (of_decide_eq_true hsame)
      rw [hname, h.declares] at hlookup
      dsimp only
      rw [← Option.some.inj hlookup, HttpParser.stoul_decimal (isDecimal_decimal h.length_lt) h.length_lt]
      rfl

/-- Every header line has some bytes. -/
theorem length_le_lines (fields : List (Bytes × Bytes)) :
    fields.length ≤ (fields.flatMap fun f => f.1 ++ [58, 32] ++ f.2 ++ crlf).length := by
  induction fields with
  | nil => exact Nat.zero_le _
  | cons f fields ih =>
      have hline : 0 < (f.1 ++ [58, 32] ++ f.2 ++ crlf).length := by
        rw [List.length_append]
        exact Nat.lt_add_left _ (by decide)
      rw [List.flatMap_cons, List.length_append, List.length_cons]
      omega

/-- **A response is read back whole**, whatever follows it. -/
theorem readReply_serialize (ord : IterOrder Bytes) {resp : HttpResponse} (h : Sendable resp)
    (tail : Bytes) : readReply (resp.serialize ord ++ tail) = some (replyOf ord resp, tail) := by
  let status := (replyOf ord resp).status
  let fields := UnorderedMap.iterate ord resp.headers
  let others := fields.flatMap (fun f => f.1 ++ [58, 32] ++ f.2 ++ crlf) ++ (crlf ++ (resp.body ++ tail))
  have htext : resp.serialize ord ++ tail = status ++ 13 :: 10 :: others := by
    simp [HttpResponse.serialize, status, fields, others, replyOf, crlf]
  have hstatus : 13 ∉ status := by
    simp only [status, replyOf, List.mem_append, List.mem_singleton, not_or]
    exact ⟨⟨⟨⟨by decide, by decide⟩, cr_notMem_intDecimal _⟩, by decide⟩, h.message_noCr⟩
  have hplain : ∀ f ∈ fields, PlainField f := by
    intro f hf
    have hmem := (UnorderedMap.iterate_perm ord resp.headers).mem_iff.mp hf
    exact h.plain f.1 f.2 (UnorderedMap.mem_pairs_iff.mp hmem)
  have hdrop : (status ++ 13 :: 10 :: others).drop (status.length + 2) = others := by
    rw [List.drop_append, List.drop_eq_nil_of_le (by omega), Nat.add_sub_cancel_left]
    rfl
  have hfuel : fields.length < (status ++ 13 :: 10 :: others).length := by
    have hlines := length_le_lines fields
    simp only [others, List.length_append, List.length_cons]
    omega
  rw [htext]
  refine readReply_eq_some.mpr ⟨status.length, fields, resp.body ++ tail, resp.body.length,
    searchCrlf_line hstatus others, ?_, h.bodyLength ord, ?_, ?_, ?_⟩
  · rw [hdrop]
    exact readFields_lines hplain _ hfuel
  · rw [List.length_append]
    exact Nat.le_add_right _ _
  · rw [List.take_left, List.take_left]
    rfl
  · rw [List.drop_left]

/-- **Responses on the wire are told apart**: a client reads all of them, and nothing is left. -/
theorem client_run_serialize (ord : IterOrder Bytes) {resps : List HttpResponse}
    (h : ∀ resp ∈ resps, Sendable resp) (out : List Reply) :
    client.run out (resps.flatMap (HttpResponse.serialize ord)) = (out ++ resps.map (replyOf ord), []) := by
  induction resps generalizing out with
  | nil =>
      rw [List.map_nil, List.append_nil]
      exact Consumer.run_of_none rfl
  | cons resp resps ih =>
      have hread := readReply_serialize ord (h resp List.mem_cons_self)
        (resps.flatMap (HttpResponse.serialize ord))
      rw [List.flatMap_cons, client, Consumer.collecting_of_read hread, ← client,
        ih fun r hr => h r (List.mem_cons_of_mem _ hr), List.append_assoc]
      rfl

/-- `set_body` makes a response sendable, whatever body it is given. -/
theorem sendable_setBody {resp : HttpResponse} {content : Bytes} (hmessage : 13 ∉ resp.statusMessage)
    (hplain : ∀ name value, resp.headers.lookup name = some value → PlainField (name, value))
    (hother : ∀ name value, resp.headers.lookup name = some value → SameName name kContentLength →
      name = kContentLength)
    (hlen : content.length < 2 ^ 64) : Sendable (resp.setBody content) where
  message_noCr := hmessage
  plain name value hlookup := by
    simp only [HttpResponse.setBody, UnorderedMap.lookup_assign] at hlookup
    split at hlookup
    · rename_i hname
      obtain rfl := Option.some.inj hlookup
      subst hname
      have hname : 13 ∉ kContentLength ∧ 58 ∉ kContentLength := by decide
      refine ⟨hname.1, hname.2, notMem_decimal (by decide) _, ?_⟩
      intro c hc
      exact HttpParser.isspace_of_isdigit (isdigit_of_mem_decimal c (List.mem_of_mem_head? hc))
    · exact hplain name value hlookup
  declares := UnorderedMap.lookup_assign_self _ _ _
  declares_once name value hlookup hsame := by
    simp only [HttpResponse.setBody, UnorderedMap.lookup_assign] at hlookup
    split at hlookup
    · rename_i hname
      exact hname
    · exact hother name value hlookup hsame
  length_lt := hlen

/-- The response 404 is sendable. -/
theorem sendable_notFound : Sendable HttpServer.notFound := by
  have hlookup : ∀ name value,
      (UnorderedMap.assign kContentType (ascii ['t', 'e', 'x', 't', '/', 'p', 'l', 'a', 'i', 'n'])
        (∅ : UnorderedMap Bytes Bytes)).lookup name = some value →
      name = kContentType ∧ value = ascii ['t', 'e', 'x', 't', '/', 'p', 'l', 'a', 'i', 'n'] := by
    intro name value h
    rw [UnorderedMap.lookup_assign] at h
    split at h
    · rename_i hname
      exact ⟨hname, (Option.some.inj h).symm⟩
    · exact absurd h nofun
  refine sendable_setBody (by decide) ?_ ?_ (by decide)
  · intro name value h
    obtain ⟨rfl, rfl⟩ := hlookup name value h
    exact ⟨by decide, by decide, by decide, by decide⟩
  · intro name value h hsame
    obtain ⟨rfl, -⟩ := hlookup name value h
    exact absurd hsame (by decide)

/-! ## Requests of a client -/

/-- The server takes a client's requests out of the stream as the client has written them, up to the
first that closes the connection. -/
theorem requestsOf_render (ord : IterOrder Bytes) (reqs : List WireRequest) :
    ∃ k, List.Forall₂ WireRequest.Recovers (requestsOf ord (reqs.flatMap WireRequest.render))
      (reqs.take k) := by
  -- with the requests that have been taken out before
  suffices h : ∀ out : List HttpRequest, ∃ taken k,
      ((Exchanges.consumer ord).run { requests := out } (reqs.flatMap WireRequest.render)).1.requests
        = out ++ taken ∧ List.Forall₂ WireRequest.Recovers taken (reqs.take k) by
    obtain ⟨taken, k, hrun, htaken⟩ := h []
    rw [List.nil_append] at hrun
    exact ⟨k, by rw [requestsOf, show ({} : Exchanges) = { requests := [] } from rfl, hrun]; exact htaken⟩
  induction reqs with
  | nil =>
      intro out
      refine ⟨[], 0, ?_, .nil⟩
      rw [List.append_nil, List.flatMap_nil, Consumer.run_of_none rfl]
  | cons r reqs ih =>
      intro out
      obtain ⟨q, hrun, hcomplete, hrecovers⟩ :=
        HttpParser.run_render ord r (reqs.flatMap WireRequest.render)
      rw [List.flatMap_cons, Exchanges.run_parsing { requests := out } rfl, hrun,
        Exchanges.run_complete rfl rfl hcomplete]
      by_cases hkeep : q.keepAlive = true
      · obtain ⟨taken, k, htail, htaken⟩ := ih (out ++ [q.request])
        have hnext : Exchanges.complete { parser := (q, none), requests := out } q
            = { requests := out ++ [q.request] } := by
          simp only [Exchanges.complete, hkeep, if_true, Bool.not_true]
          rfl
        refine ⟨q.request :: taken, k + 1, ?_, ?_⟩
        · rw [hnext, htail, List.append_assoc]
          rfl
        · rw [List.take_succ_cons]
          exact .cons hrecovers htaken
      · have hclosing : (Exchanges.complete { parser := (q, none), requests := out } q).closing
            = true := by
          rw [Bool.not_eq_true] at hkeep
          simp only [Exchanges.complete, hkeep, Bool.not_false]
        have hstuck : (Exchanges.consumer ord).step
            (Exchanges.complete { parser := (q, none), requests := out } q)
            (reqs.flatMap WireRequest.render) = none := if_pos hclosing
        refine ⟨[q.request], 1, ?_, ?_⟩
        · rw [Consumer.run_of_none hstuck]
          rfl
        · rw [List.take_succ_cons, List.take_zero]
          exact .cons hrecovers .nil

namespace HttpServer

/-- What a client reads for a request. -/
def replyTo (ord : IterOrder Bytes) (routes : Routes) (req : HttpRequest) : Reply :=
  replyOf ord (respond routes req)

/-! ## The contract -/

/-- **A client's n-th reply is the answer to its n-th request.** A client writes well-formed requests
to a connection, which reach the server cut and delivered in any way, and reads what comes back; the
handlers may throw, the connection may be closed, the coroutine may be resumed at any time.  As long as
nothing outgrows its buffer and nobody else sends, and if the responses are sendable, the replies the
client has read at any moment are those to its first requests, one for each and in order; and it has read
all of them, with nothing left over, once the connection is connected, the coroutine idle and everything
flushed. -/
theorem replies_match_requests (ord : IterOrder Bytes) (routes : Routes) (h : Coro) (moves : List Move)
    (reqs : List WireRequest)
    (hanswer : Admissible (watch ord routes.keys h) (HandlersAnswer routes) {} moves)
    (hfits : Admissible (watch ord routes.keys h) (FitsBuffers ord routes) {} moves)
    (halone : Admissible (watch ord routes.keys h) SendsAlone {} moves)
    (hstream : (run (watch ord routes.keys h) {} moves).received <+: reqs.flatMap WireRequest.render)
    (hsendable : ∀ req ∈ requestsOf ord (run (watch ord routes.keys h) {} moves).received,
      Sendable (respond routes req)) :
    let w := run (watch ord routes.keys h) {} moves
    let asked := requestsOf ord w.received
    (∃ k, List.Forall₂ WireRequest.Recovers asked (reqs.take k))
      ∧ (client.run [] w.serving.life.conn.wire).1 <+: asked.map (replyTo ord routes)
      ∧ (w.serving.life.conn.state = .kConnected → Idle ord w.serving →
          w.serving.life.conn.outputBuffer.readable = [] →
          client.run [] w.serving.life.conn.wire = (asked.map (replyTo ord routes), [])) := by
  intro w asked
  obtain ⟨place, hs⟩ := serves_run ord routes h moves hanswer hfits halone
  obtain ⟨hfirst, hall⟩ := hs.requests
  have hreplies : client.run [] (asked.map (answer ord routes)).flatten
      = (asked.map (replyTo ord routes), []) := by
    have hall : ∀ resp ∈ asked.map (respond routes), Sendable resp := List.forall_mem_map.mpr hsendable
    have hread := client_run_serialize ord hall []
    rw [List.flatMap_map, List.map_map] at hread
    exact hread
  refine ⟨?_, ?_, ?_⟩
  · obtain ⟨k, hrecovers⟩ := requestsOf_render ord reqs
    obtain ⟨rest, hrest⟩ := hstream
    have hasked : asked <+: requestsOf ord (reqs.flatMap WireRequest.render) := by
      rw [← hrest]
      exact Exchanges.requestsOf_mono _ _
    have htake := List.forall₂_take asked.length hrecovers
    rw [← List.prefix_iff_eq_take.mp hasked, List.take_take] at htake
    exact ⟨_, htake⟩
  · -- what is on the wire is a front part of all the answers
    have hwire : w.serving.life.conn.wire <+: (asked.map (answer ord routes)).flatten :=
      ((List.prefix_append _ _).trans hs.delivers.accounts.front).trans
        (List.IsPrefix.flatten (hs.written_front.trans (hfirst.map _)))
    have hmono : (client.run [] w.serving.life.conn.wire).1
        <+: (client.run [] (asked.map (answer ord routes)).flatten).1 :=
      Consumer.collecting_mono hwire []
    rw [hreplies] at hmono
    exact hmono
  · intro hconn hidle hflushed
    have hbytes := hs.delivers.connected hconn
    rw [hflushed, List.append_nil, hs.written hconn, hall hidle] at hbytes
    rw [hbytes]
    exact hreplies

/-- What the greeter says is sendable. -/
theorem sendable_greeter (req : HttpRequest) : Sendable (respond greeter req) := by
  unfold respond
  split
  · rename_i handler hlookup
    rw [greeter, get, addRoute, UnorderedMap.lookup_assign] at hlookup
    split at hlookup
    · obtain rfl := Option.some.inj hlookup
      have hempty : ∀ name value : Bytes, (∅ : UnorderedMap Bytes Bytes).lookup name ≠ some value := by
        simp
      exact sendable_setBody (by decide) (fun name value h => absurd h (hempty name value))
        (fun name value h => absurd h (hempty name value)) (by decide)
    · exact absurd hlookup (by simp)
  · exact sendable_notFound

/-- The greeter answers the first request; of the second one only a part has come. -/
def firstMoves : List Move := (greeterMoves.eraseIdx 3).take 6

theorem replies_match_requests_sample :
    client.run [] (run (watch (IterOrder.entries Bytes) greeter.keys 7) {} firstMoves).serving.life.conn.wire
      = ((requestsOf (IterOrder.entries Bytes)
          (run (watch (IterOrder.entries Bytes) greeter.keys 7) {} firstMoves).received).map
            (replyTo (IterOrder.entries Bytes) greeter), []) := by
  have hanswer : Admissible (watch (IterOrder.entries Bytes) greeter.keys 7) (HandlersAnswer greeter)
      {} firstMoves := by
    refine admissible_iff_split.mpr fun pre m post hsplit => greeter_answers _ m ?_
    have hm : m ∈ firstMoves := by
      rw [hsplit]
      exact List.mem_append_right _ List.mem_cons_self
    exact List.mem_of_mem_eraseIdx (List.mem_of_mem_take hm)
  exact (replies_match_requests (IterOrder.entries Bytes) greeter 7 firstMoves
    [HttpParser.getRoot, HttpParser.postLine] hanswer (by decide +kernel) (by decide +kernel)
    (by decide +kernel) (fun req _ => sendable_greeter req)).2.2 (by decide +kernel)
    ⟨by decide +kernel, by decide +kernel⟩ (by decide +kernel)

end HttpServer

end LightNet.Http
