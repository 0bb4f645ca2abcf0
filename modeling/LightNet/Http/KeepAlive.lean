/-
# LightNet.Http.KeepAlive — the two computations of keep-alive.

`parser.keep_alive()` is a flag that every header line in one of two exact spellings overwrites;
`request().keep_alive()` looks `Connection` up without its case when the request is there, and falls
back to the version.  On the head of a stream the two verdicts are those of two values: the last one
in an exact spelling (`lastSpelled`), and the one that is looked up (`connectionValue`).

`OneVerdict` lists the heads on which they agree.  What it leaves out are older versions without a
`Connection` header, spellings that only the lookup sees, and repeated headers of which the two read
different ones.
-/
import LightNet.Http.ContentLength

namespace LightNet.Http

open LightNet.Foundation LightNet.Core

/-! ## What a header says -/

/-- The value of the last line whose name is spelled `Connection` or `connection`. -/
def lastSpelled (fields : List (Bytes × Bytes)) : Option Bytes :=
  (fields.reverse.find? fun f => HttpParser.SpelledConnection f).map Prod.snd

/-- The text that `get_header("Connection")` finds among the fields. -/
def connectionValue (ord : IterOrder Bytes) (fields : List (Bytes × Bytes)) : Bytes :=
  HttpRequest.getHeader ord { headers := tableOf fields } kConnection

/-- The head says the same to both computations. -/
def OneVerdict (ord : IterOrder Bytes) (version : Bytes) (fields : List (Bytes × Bytes)) : Prop :=
  -- both read `close`
  lastSpelled fields = some kClose ∧ connectionValue ord fields = kClose
  -- neither does, and the version is not asked or is the one that keeps alive
  ∨ lastSpelled fields ≠ some kClose ∧ connectionValue ord fields ≠ kClose
      ∧ (connectionValue ord fields ≠ [] ∨ version = kHttp11)
  -- an empty value is found, an older version closes, and so does a later line
  ∨ lastSpelled fields = some kClose ∧ connectionValue ord fields = [] ∧ version ≠ kHttp11

namespace HttpParser

variable {ord : IterOrder Bytes}

/-! ## Complete requests -/

/-- The run over the stream of a parser that has completed ends in it. -/
theorem Fed.run_complete {xs : Bytes} {p : HttpParser} {buf : Buffer} (hfed : Fed ord xs p buf)
    (hdone : p.state = .kComplete) : (consumer ord).run (new, none) xs = ((p, none), buf.readable) := by
  rw [hfed.run_eq.2]
  exact Consumer.run_of_final (final_of_complete hdone) buf.readable

/-- A parser that has completed is the one that has read the head, but for the body. -/
theorem Fed.complete_eq {xs : Bytes} {p : HttpParser} {buf : Buffer} (hfed : Fed ord xs p buf)
    (hdone : p.state = .kComplete) {s : StartLine} {fields : List (Bytes × Bytes)} {tail : Bytes}
    (hhead : Head xs s fields tail) :
    p.keepAlive = (headed s fields).keepAlive
      ∧ p.request.headers = (headed s fields).request.headers
      ∧ p.request.version = (headed s fields).request.version := by
  have hrun := hfed.run_complete hdone
  by_cases hcl : declared ord fields = []
  · rw [run_undeclared hhead hcl] at hrun
    obtain ⟨hstate, -⟩ := Prod.mk.inj hrun
    obtain ⟨rfl, -⟩ := Prod.mk.inj hstate
    exact ⟨rfl, rfl, rfl⟩
  · cases hlen : stoul (declared ord fields) with
    | error e =>
        rw [run_thrown hhead hcl hlen] at hrun
        cases (Prod.mk.inj (Prod.mk.inj hrun).1).2
    | ok n =>
        rw [run_declared hhead hcl hlen] at hrun
        split at hrun
        · -- still waiting for the body
          obtain ⟨hstate, -⟩ := Prod.mk.inj hrun
          obtain ⟨rfl, -⟩ := Prod.mk.inj hstate
          cases hdone
        · obtain ⟨hstate, -⟩ := Prod.mk.inj hrun
          obtain ⟨rfl, -⟩ := Prod.mk.inj hstate
          exact ⟨rfl, rfl, rfl⟩

/-- A parser completes behind a whole head only. -/
theorem Fed.exists_head {xs : Bytes} {p : HttpParser} {buf : Buffer} (hfed : Fed ord xs p buf)
    (hdone : p.state = .kComplete) : ∃ s fields tail, Head xs s fields tail := by
  rcases head_or_waits ord xs with hhead | ⟨q, rest, hwaits, hq⟩
  · exact hhead
  · have hrun := hfed.run_complete hdone
    rw [hwaits] at hrun
    obtain ⟨hstate, -⟩ := Prod.mk.inj hrun
    obtain ⟨rfl, -⟩ := Prod.mk.inj hstate
    rcases hq with hq | hq | hq
    · cases hq.symm.trans hdone
    · cases hq.symm.trans hdone
    · cases hq.symm.trans hdone

/-- The flag says what the last exact spelling says. -/
theorem headed_keepAlive (s : StartLine) (fields : List (Bytes × Bytes)) :
    (headed s fields).keepAlive = (lastSpelled fields != some kClose) := by
  rw [headed, foldl_store_keepAlive, lastSpelled]
  cases fields.reverse.find? fun f => SpelledConnection f with
  | none => rfl
  | some f => simp [bne]

/-- The lookup says what the value it finds, or else the version, says. -/
theorem keepAlive_of_headers {req : HttpRequest} {fields : List (Bytes × Bytes)}
    (h : req.headers = tableOf fields) :
    req.keepAlive ord = if connectionValue ord fields ≠ [] then connectionValue ord fields != kClose
      else req.version == kHttp11 := by
  have hvalue : req.getHeader ord kConnection = connectionValue ord fields := by
    unfold connectionValue HttpRequest.getHeader
    rw [h]
  simp only [HttpRequest.keepAlive, hvalue]

/-- The two verdicts on a head, compared. -/
theorem oneVerdict_iff (version : Bytes) (fields : List (Bytes × Bytes)) :
    OneVerdict ord version fields ↔ (lastSpelled fields != some kClose)
      = (if connectionValue ord fields ≠ [] then connectionValue ord fields != kClose
          else version == kHttp11) := by
  have hclose : kClose ≠ [] := by decide
  unfold OneVerdict
  by_cases hlast : lastSpelled fields = some kClose
  · by_cases hvalue : connectionValue ord fields = []
    · simp [hlast, hvalue, hclose.symm, beq_eq_false_iff_ne]
    · simp [hlast, hvalue]
  · by_cases hvalue : connectionValue ord fields = []
    · simp [hlast, hvalue, hclose.symm, bne_iff_ne.mpr hlast]
    · simp [hlast, hvalue, bne_iff_ne.mpr hlast]

/-! ## The contract -/

/-- **When the two computations agree.** However a stream is delivered, once the parser has completed
its flag is the request's own verdict exactly when the head of the stream says the same to both. -/
theorem keepAlive_agrees_iff {xs : Bytes} {p : HttpParser} {buf : Buffer} (hfed : Fed ord xs p buf)
    (hdone : p.state = .kComplete) :
    p.keepAlive = p.request.keepAlive ord
      ↔ ∀ s fields tail, Head xs s fields tail → OneVerdict ord s.version fields := by
  have hverdict : ∀ s fields tail, Head xs s fields tail →
      (p.keepAlive = p.request.keepAlive ord ↔ OneVerdict ord s.version fields) := by
    intro s fields tail hhead
    obtain ⟨hflag, hheaders, hversion⟩ := hfed.complete_eq hdone hhead
    obtain ⟨-, hsays, htable, -⟩ := headed_frame s fields
    rw [hflag, headed_keepAlive, keepAlive_of_headers (hheaders.trans htable), hversion, hsays,
      oneVerdict_iff]
  constructor
  · intro h s fields tail hhead
    exact (hverdict s fields tail hhead).mp h
  · intro h
    obtain ⟨s, fields, tail, hhead⟩ := hfed.exists_head hdone
    exact (hverdict s fields tail hhead).mpr (h s fields tail hhead)

/-- `GET / HTTP/1.0`, without headers. -/
def oldRequest : Bytes :=
  ascii ['G', 'E', 'T'] ++ 32 :: 47 :: 32 :: (kHttpSlash ++ [49, 46, 48]) ++ crlf ++ crlf

/-- The parser that was given that request, and its buffer. -/
theorem oldRequest_fed :
    Fed (IterOrder.entries Bytes) (Buffer.new.append oldRequest).readable
      (new.parse (IterOrder.entries Bytes) (Buffer.new.append oldRequest)).parser
      (new.parse (IterOrder.entries Bytes) (Buffer.new.append oldRequest)).buf :=
  .parse (.fresh (Buffer.append_inv Buffer.new_inv (Buffer.Fits.of_le (by decide +kernel))))
    (by decide +kernel)

theorem oldRequest_verdicts :
    let p := (new.parse (IterOrder.entries Bytes) (Buffer.new.append oldRequest)).parser
    p.state = .kComplete ∧ p.keepAlive = true
      ∧ p.request.keepAlive (IterOrder.entries Bytes) = false := by
  decide +kernel

theorem keepAlive_agrees_iff_sample :
    ¬ ∀ s fields tail, Head (Buffer.new.append oldRequest).readable s fields tail →
      OneVerdict (IterOrder.entries Bytes) s.version fields := by
  obtain ⟨hdone, hflag, hsays⟩ := oldRequest_verdicts
  intro h
  have hagree := (keepAlive_agrees_iff oldRequest_fed hdone).mpr h
  rw [hflag, hsays] at hagree
  cases hagree

/-- **The two computations disagree.** An HTTP/1.0 request without a `Connection` header is kept alive
by the parser and closed by its own request. -/
theorem keepAlive_disagrees :
    ∃ xs p buf, Fed (IterOrder.entries Bytes) xs p buf ∧ p.state = .kComplete
      ∧ p.keepAlive ≠ p.request.keepAlive (IterOrder.entries Bytes) := by
  obtain ⟨hdone, hflag, hsays⟩ := oldRequest_verdicts
  refine ⟨_, _, _, oldRequest_fed, hdone, ?_⟩
  rw [hflag, hsays]
  decide

end HttpParser

end LightNet.Http
