/-
# LightNet.Coro.AsyncRead — what `co_await AsyncRead{conn, hint}` waits for.

The await is followed from `await_ready` to `await_resume`: it goes on at once, or the coroutine is
parked with the connection, or it is passed to `schedule_coro` and resumed by a later round of the
loop.  Until it goes on, anything else may happen to the connection, bytes that arrive above all.

Whatever arrives is appended, so the buffer at the end holds what was there and what has arrived
(`run_readable`).  But a coroutine is scheduled as soon as one byte is there, whatever the hint.  So
the documented minimum is kept for every pattern of arrivals exactly when the hint asks for no more
than one byte or than is there already (`honours_iff`).
-/
import LightNet.Coro.Served

namespace LightNet.Coro.AsyncRead

open LightNet.Foundation LightNet.Core LightNet.Net

/-! ## The await -/

/-- Where the await stands. -/
inductive Phase where
  /-- `await_ready` has said yes. -/
  | ready
  /-- Registered by `resume_read_coro`. -/
  | parked
  /-- Passed to `schedule_coro`. -/
  | scheduled
  /-- `await_resume` has returned. -/
  | completed
  deriving DecidableEq

/-- A connection on which a coroutine awaits a read. -/
structure Await where
  life : Life
  phase : Phase

/-- The act passes the coroutine to `schedule_coro`. -/
def Schedules (life : Life) (a : Act) (h : Coro) : Prop :=
  h ∈ (life.act a).conn.scheduled.drop life.conn.scheduled.length

instance (life : Life) (a : Act) (h : Coro) : Decidable (Schedules life a h) :=
  inferInstanceAs (Decidable (_ ∈ _))

/-- `await_ready`, and `await_suspend` if that says no. -/
def start (life : Life) (h : Coro) (hint : Nat) : Await where
  life := life.act (.awaitInput h hint)
  phase :=
    if life.conn.asyncReadReady hint then .ready
    else if Schedules life (.awaitInput h hint) h then .scheduled
    else .parked

/-- What happens next: an act that is not the coroutine's own, or the coroutine goes on. -/
inductive Moment where
  | other (a : OtherAct)
  | resume (r : ReadResult)

/-- One moment of the await of `h`.  A coroutine that does not suspend goes on at once. -/
def step (h : Coro) (s : Await) : Moment → Await
  | .other a =>
      match s.phase with
      | .parked =>
          { life := s.life.act a.val
            phase := if Schedules s.life a.val h then .scheduled else .parked }
      | .scheduled => { s with life := s.life.act a.val }
      | .ready | .completed => s
  | .resume r =>
      match s.phase with
      -- `await_resume`
      | .ready | .scheduled => { life := s.life.act (.readSome r), phase := .completed }
      | .parked | .completed => s

/-- The bytes that are read from the socket in a moment. -/
def arrivedIn (s : Await) : Moment → Bytes
  | .other a =>
      match s.phase with
      | .parked | .scheduled => incoming s.life a.val
      | .ready | .completed => []
  | .resume r =>
      match s.phase with
      | .ready | .scheduled => incoming s.life (.readSome r)
      | .parked | .completed => []

/-- A suspended coroutine awaits nothing else, and reads stay below the capacity cap. -/
def Possible (h : Coro) (s : Await) : Moment → Prop
  | .other a =>
      a.val ≠ .awaitOutput h ∧ (∀ n, a.val ≠ .awaitInput h n) ∧ InputFits s.life a.val
  | .resume r => InputFits s.life (.readSome r)

/-- The await has completed, and the connection is still connected. -/
def Await.Completed (s : Await) : Prop := s.phase = .completed ∧ s.life.conn.state = .kConnected

/-- The documented minimum: however bytes arrive, the await completes with `hint` bytes in the
buffer. -/
def Honours (life : Life) (h : Coro) (hint : Nat) : Prop :=
  ∀ moments, Admissible (step h) (Possible h) (start life h hint) moments →
    (run (step h) (start life h hint) moments).Completed →
    hint ≤ (run (step h) (start life h hint) moments).life.conn.inputBuffer.readableBytes

/-- All that is read from the socket while the await lasts. -/
def arrived (h : Coro) (s : Await) (moments : List Moment) : Bytes :=
  (outputs (step h) arrivedIn s moments).flatten

variable {life : Life} {h : Coro} {hint : Nat}

/-! ## The start -/

theorem schedules_iff {a : Act} : Schedules life a h ↔ h ∈ life.released a := by
  have hscheduled : (life.act a).conn.scheduled = life.conn.scheduled ++ life.released a :=
    (Life.act_spec life a).scheduled
  rw [Schedules, hscheduled, List.drop_left]

theorem start_inputBuffer : (start life h hint).life.conn.inputBuffer = life.conn.inputBuffer :=
  Life.act_inputBuffer life (.awaitInput h hint)

theorem not_ready (hlt : life.conn.inputBuffer.readableBytes < hint) :
    life.conn.asyncReadReady hint = false := decide_eq_false (Nat.not_le.mpr hlt)

/-- Some bytes, though too few: the coroutine is scheduled all the same. -/
theorem start_of_some (hlt : life.conn.inputBuffer.readableBytes < hint)
    (hpos : 0 < life.conn.inputBuffer.readableBytes) : (start life h hint).phase = .scheduled := by
  have hreleased : life.released (.awaitInput h hint) = [h] := if_pos ⟨not_ready hlt, hpos⟩
  have hsched : Schedules life (.awaitInput h hint) h := by
    rw [schedules_iff, hreleased]
    exact List.mem_singleton_self h
  simp only [start, not_ready hlt, if_pos hsched, Bool.false_eq_true, if_false]

/-- No bytes: the coroutine is parked. -/
theorem start_of_empty (hlt : life.conn.inputBuffer.readableBytes < hint)
    (hzero : life.conn.inputBuffer.readableBytes = 0) :
    (start life h hint).phase = .parked ∧ (start life h hint).life.conn.reader = some h := by
  have hreleased : life.released (.awaitInput h hint) = [] := if_neg (by omega)
  have hregistered : life.registered (.awaitInput h hint) = [h] := by
    apply if_neg
    rw [not_ready hlt, hzero]
    simp
  have hsched : ¬ Schedules life (.awaitInput h hint) h := by
    rw [schedules_iff, hreleased]
    exact List.not_mem_nil
  refine ⟨by simp only [start, not_ready hlt, if_neg hsched, Bool.false_eq_true, if_false], ?_⟩
  refine ((Life.act_spec life (.awaitInput h hint)).reader).trans (if_neg ?_)
  rw [hregistered]
  exact List.cons_ne_nil h []

theorem start_state : (start life h hint).life.conn.state = life.conn.state := by
  show (life.onConn (.awaitInput h hint)).state = _
  rw [Life.onConn_awaitInput]
  split
  · rfl
  · split
    · rfl
    · simp only [TcpConnection.resumeReadCoro]
      split <;> rfl

/-! ## What is in the buffer -/

/-- **One moment.** What arrives is appended. -/
theorem step_readable {s : Await} {m : Moment} (hinv : s.life.conn.inputBuffer.Inv)
    (hok : Possible h s m) :
    (step h s m).life.conn.inputBuffer.Inv
      ∧ (step h s m).life.conn.inputBuffer.readable
        = s.life.conn.inputBuffer.readable ++ arrivedIn s m := by
  have hstay : s.life.conn.inputBuffer.Inv
      ∧ s.life.conn.inputBuffer.readable = s.life.conn.inputBuffer.readable ++ [] :=
    ⟨hinv, (List.append_nil _).symm⟩
  cases m with
  | other a =>
      have hact := act_readable hinv a.property.2 hok.2.2
      cases hphase : s.phase with
      | ready | completed => simpa only [step, arrivedIn, hphase] using hstay
      | parked | scheduled => simpa only [step, arrivedIn, hphase] using hact
  | resume r =>
      have hact := act_readable hinv (a := .readSome r) nofun hok
      cases hphase : s.phase with
      | ready | scheduled => simpa only [step, arrivedIn, hphase] using hact
      | parked | completed => simpa only [step, arrivedIn, hphase] using hstay

/-- **The whole await.** The buffer ends with what was there and what has arrived. -/
theorem run_readable {s : Await} {moments : List Moment} (hinv : s.life.conn.inputBuffer.Inv)
    (hok : Admissible (step h) (Possible h) s moments) :
    (run (step h) s moments).life.conn.inputBuffer.Inv
      ∧ (run (step h) s moments).life.conn.inputBuffer.readable
        = s.life.conn.inputBuffer.readable ++ arrived h s moments := by
  induction moments generalizing s with
  | nil => exact ⟨hinv, (List.append_nil _).symm⟩
  | cons m moments ih =>
      obtain ⟨hinv₁, hread₁⟩ := step_readable hinv hok.1
      obtain ⟨hinv₂, hread₂⟩ := ih hinv₁ hok.2
      refine ⟨hinv₂, ?_⟩
      rw [run_cons, hread₂, hread₁, List.append_assoc]
      rfl

theorem run_readableBytes {moments : List Moment} (hinv : life.conn.inputBuffer.Inv)
    (hok : Admissible (step h) (Possible h) (start life h hint) moments) :
    (run (step h) (start life h hint) moments).life.conn.inputBuffer.readableBytes
      = life.conn.inputBuffer.readableBytes + (arrived h (start life h hint) moments).length := by
  have hstart : (start life h hint).life.conn.inputBuffer.Inv := by
    rw [start_inputBuffer]
    exact hinv
  obtain ⟨hinv', hread⟩ := run_readable hstart hok
  rw [hinv'.readableBytes_eq_length, hread, List.length_append, start_inputBuffer,
    hinv.readableBytes_eq_length]

/-! ## At least one byte -/

/-- While the coroutine is not parked there is a byte for it, and only a read can end that. -/
structure Supplied (h : Coro) (s : Await) : Prop where
  inv : s.life.conn.inputBuffer.Inv
  writer : s.phase = .parked → s.life.conn.writer ≠ some h
  bytes : s.phase ≠ .parked → 0 < s.life.conn.inputBuffer.readableBytes

theorem arrives_pos {b : Buffer} {bytes : Option Bytes} (hread : 0 < (b.readFd bytes).1) :
    0 < (arrives b bytes).length := by
  cases bytes with
  | none => exact absurd hread (by simp [Buffer.readFd])
  | some bytes =>
      have hcount : (b.readFd (some bytes)).1 = ((b.delivered bytes).length : Int) := by
        simp only [Buffer.readFd, Buffer.delivered]
        split <;> rfl
      rw [hcount] at hread
      exact Int.natCast_pos.mp hread

/-- A coroutine that waits for input only is released by a read that gets some bytes. -/
theorem released_by_read {a : OtherAct} (hwriter : life.conn.writer ≠ some h)
    (hown : a.val ≠ .awaitOutput h ∧ ∀ n, a.val ≠ .awaitInput h n) (hrel : h ∈ life.released a.val) :
    0 < (incoming life a.val).length := by
  obtain ⟨a, ha⟩ := a
  cases a with
  | handleRead r onMessage =>
      by_cases hsome : life.conn.ReadsSome r
      · exact arrives_pos hsome
      · rw [Life.released, if_neg hsome] at hrel
        exact absurd hrel List.not_mem_nil
  | handleWrite r onComplete =>
      simp only [Life.released] at hrel
      split at hrel
      · exact absurd (Option.mem_toList.mp hrel) hwriter
      · exact absurd hrel List.not_mem_nil
  | awaitInput g n =>
      simp only [Life.released] at hrel
      split at hrel
      · obtain rfl := List.mem_singleton.mp hrel
        exact absurd rfl (hown.2 n)
      · exact absurd hrel List.not_mem_nil
  | awaitOutput g =>
      simp only [Life.released] at hrel
      split at hrel
      · obtain rfl := List.mem_singleton.mp hrel
        exact absurd rfl hown.1
      · exact absurd hrel List.not_mem_nil
  | connectEstablished | connectDestroyed | handleClose | handleError | send | shutdown | forceClose
  | retrieve | readSome | post | runClosure => exact absurd hrel List.not_mem_nil

/-- Nothing but an await of its own makes the coroutine wait for output. -/
theorem writer_ne_of_other {a : Act} (hwriter : life.conn.writer ≠ some h)
    (hown : a ≠ .awaitOutput h) : (life.act a).conn.writer ≠ some h := by
  rw [show (life.act a).conn.writer = life.writerAfter a from (Life.act_spec life a).writer]
  cases a with
  | handleWrite r onComplete =>
      simp only [Life.writerAfter]
      split
      · exact (Option.some_ne_none h).symm
      · exact hwriter
  | awaitOutput g =>
      simp only [Life.writerAfter]
      split
      · exact hwriter
      · rintro hg
        obtain rfl := Option.some.inj hg
        exact hown rfl
  | connectEstablished | connectDestroyed | handleClose | handleError | handleRead | send | shutdown
  | forceClose | retrieve | readSome | awaitInput | post | runClosure => exact hwriter

/-! ## Every move keeps it -/

theorem start_supplied (hinv : life.conn.inputBuffer.Inv) (hwriter : life.conn.writer ≠ some h)
    (hhint : 0 < hint) : Supplied h (start life h hint) where
  inv := by
    rw [start_inputBuffer]
    exact hinv
  writer := fun _ => writer_ne_of_other hwriter nofun
  bytes := by
    intro hphase
    rw [start_inputBuffer]
    by_contra hnone
    exact hphase (start_of_empty (by omega) (by omega)).1

theorem step_supplied {s : Await} {m : Moment} (hs : Supplied h s) (hok : Possible h s m) :
    Supplied h (step h s m) := by
  obtain ⟨hinv, hread⟩ := step_readable hs.inv hok
  have hcount : (step h s m).life.conn.inputBuffer.readableBytes
      = s.life.conn.inputBuffer.readableBytes + (arrivedIn s m).length := by
    rw [hinv.readableBytes_eq_length, hread, List.length_append, hs.inv.readableBytes_eq_length]
  refine ⟨hinv, ?_, ?_⟩
  · cases m with
    | other a =>
        cases hphase : s.phase with
        | parked =>
            intro _
            rw [show (step h s (.other a)).life = s.life.act a.val by simp only [step, hphase]]
            exact writer_ne_of_other (hs.writer hphase) hok.1
        | scheduled | ready | completed =>
            intro hparked
            simp only [step, hphase] at hparked
            cases hparked
    | resume r =>
        cases hphase : s.phase with
        | parked =>
            intro _
            rw [show step h s (.resume r) = s by simp only [step, hphase]]
            exact hs.writer hphase
        | scheduled | ready | completed =>
            intro hparked
            simp only [step, hphase] at hparked
            cases hparked
  · intro hnext
    rw [hcount]
    by_cases hphase : s.phase = .parked
    · -- what ends the waiting is a read
      cases m with
      | other a =>
          have hsched : Schedules s.life a.val h := by
            by_contra hno
            simp only [step, hphase, if_neg hno] at hnext
            exact hnext rfl
          have hpos := released_by_read (hs.writer hphase) ⟨hok.1, hok.2.1⟩ (schedules_iff.mp hsched)
          simp only [arrivedIn, hphase]
          omega
      | resume r =>
          simp only [step, hphase] at hnext
          exact absurd rfl hnext
    · have hpos := hs.bytes hphase
      omega

/-- **An await with a hint completes with a byte**, whatever the hint. -/
theorem completed_pos {moments : List Moment} (hinv : life.conn.inputBuffer.Inv)
    (hwriter : life.conn.writer ≠ some h) (hhint : 0 < hint)
    (hok : Admissible (step h) (Possible h) (start life h hint) moments)
    (hdone : (run (step h) (start life h hint) moments).Completed) :
    0 < (run (step h) (start life h hint) moments).life.conn.inputBuffer.readableBytes := by
  have hsupplied := run_invariant (fun _ _ hs hm => step_supplied hs hm)
    (start_supplied hinv hwriter hhint) hok
  apply hsupplied.bytes
  rw [hdone.1]
  exact nofun

/-! ## Patterns that end too early -/

/-- An answer of the kernel that `read_some` does not ask for. -/
def unasked : ReadResult := ⟨none, EAGAIN⟩

/-- `read_some` reads nothing where something is there. -/
theorem resume_of_pos {s : Await} (hphase : s.phase = .scheduled)
    (hpos : 0 < s.life.conn.inputBuffer.readableBytes) :
    (step h s (.resume unasked)).phase = .completed
      ∧ (step h s (.resume unasked)).life.conn = s.life.conn
      ∧ Possible h s (.resume unasked) := by
  have hsame : (s.life.act (.readSome unasked)).conn = s.life.conn := by
    show (s.life.conn.readSome unasked).2 = s.life.conn
    rw [TcpConnection.readSome, if_pos hpos]
  refine ⟨by simp only [step, hphase], ?_, ?_⟩
  · simp only [step, hphase, hsame]
  · intro hzero
    exact absurd hzero (Nat.ne_of_gt hpos)

/-- A buffer without unread bytes takes one byte off the socket. -/
theorem readFits_byte {b : Buffer} (hinv : b.Inv) (hzero : b.readableBytes = 0) (c : UInt8) :
    b.delivered [c] = [c] ∧ b.ReadFits (some [c]) := by
  have hcap : 1 ≤ b.readvCapacity := by
    unfold Buffer.readvCapacity
    split
    · exact Nat.le_add_left 1 (b.writableBytes + 65535)
    · rename_i hge
      exact le_trans (by decide) (Nat.not_lt.mp hge)
  have hall : b.delivered [c] = [c] := List.take_of_length_le hcap
  refine ⟨hall, ?_⟩
  intro hfull
  rw [hall] at hfull ⊢
  -- the vector is full and nothing in it is unread: the free part in front is large, or it is tiny
  rw [hinv.writableBytes_eq] at hfull ⊢
  rw [hinv.readableBytes_eq] at hzero
  have hr := hinv.reader_le
  have hw := hinv.writer_le
  simp only [List.length_cons, List.length_nil] at hfull ⊢
  intro hlt
  simp only [Buffer.size, Buffer.kCheapPrepend, Buffer.kMaxCapacity] at *
  omega

/-- Too few bytes are there: the next round of the loop ends the await. -/
theorem too_few_present (hconn : life.conn.state = .kConnected)
    (hpos : 0 < life.conn.inputBuffer.readableBytes)
    (hlt : life.conn.inputBuffer.readableBytes < hint) : ¬ Honours life h hint := by
  intro hhonours
  have hbytes : 0 < (start life h hint).life.conn.inputBuffer.readableBytes := by
    rw [start_inputBuffer]
    exact hpos
  obtain ⟨hdone, hsame, hpossible⟩ := resume_of_pos (start_of_some hlt hpos) hbytes
  have hmin := hhonours [.resume unasked] ⟨hpossible, trivial⟩
    ⟨hdone, by rw [run_cons, run_nil, hsame, start_state, hconn]⟩
  rw [run_cons, run_nil, hsame, start_inputBuffer] at hmin
  omega

/-- One byte arrives for a parked coroutine: it is scheduled. -/
theorem other_byte {s : Await} (hinv : s.life.conn.inputBuffer.Inv) (hphase : s.phase = .parked)
    (hreader : s.life.conn.reader = some h) (hconn : s.life.conn.state = .kConnected)
    (hzero : s.life.conn.inputBuffer.readableBytes = 0) :
    (step h s (.other (bytesArrive [0]))).phase = .scheduled
      ∧ (step h s (.other (bytesArrive [0]))).life.conn.state = .kConnected
      ∧ (step h s (.other (bytesArrive [0]))).life.conn.inputBuffer.readableBytes = 1
      ∧ Possible h s (.other (bytesArrive [0])) := by
  obtain ⟨hdelivered, hfits⟩ := readFits_byte hinv hzero 0
  have hpossible : Possible h s (.other (bytesArrive [0])) := ⟨nofun, nofun, hfits⟩
  have hsome : s.life.conn.ReadsSome ⟨some [0], 0⟩ := by
    show 0 < (s.life.conn.inputBuffer.readFd (some [0])).1
    have hdata : ([0] : Bytes).take s.life.conn.inputBuffer.readvCapacity = [0] := hdelivered
    simp only [Buffer.readFd, hdata]
    split
    · exact Int.one_pos
    · exact Int.one_pos
  have hsched : Schedules s.life (bytesArrive [0]).val h := by
    rw [schedules_iff]
    show h ∈ (if s.life.conn.ReadsSome ⟨some [0], 0⟩ then s.life.conn.reader.toList else [])
    rw [if_pos hsome, hreader]
    exact List.mem_singleton_self h
  have hstep : step h s (.other (bytesArrive [0]))
      = { life := s.life.act (bytesArrive [0]).val, phase := .scheduled } := by
    simp only [step, hphase, if_pos hsched]
  obtain ⟨hinv', hread⟩ := step_readable hinv hpossible
  have harrived : arrivedIn s (.other (bytesArrive [0])) = [0] := by
    simp only [arrivedIn, hphase]
    exact hdelivered
  refine ⟨by rw [hstep], ?_, ?_, hpossible⟩
  · -- the read resumes the coroutine and does not touch the state
    rw [hstep]
    show (s.life.onConn (.handleRead ⟨some [0], 0⟩ .done)).state = .kConnected
    rw [Life.onConn_handleRead, if_pos hsome]
    split
    · exact hconn
    · exact hconn
  · rw [hinv'.readableBytes_eq_length, hread, List.length_append, harrived,
      ← hinv.readableBytes_eq_length, hzero]
    rfl

/-- No bytes are there and more than one is asked for: the first byte ends the await. -/
theorem first_byte_ends (hinv : life.conn.inputBuffer.Inv) (hconn : life.conn.state = .kConnected)
    (hzero : life.conn.inputBuffer.readableBytes = 0) (hhint : 1 < hint) : ¬ Honours life h hint := by
  intro hhonours
  obtain ⟨hphase, hreader⟩ := start_of_empty (h := h) (show life.conn.inputBuffer.readableBytes < hint by
    omega) hzero
  have hbuf : (start life h hint).life.conn.inputBuffer = life.conn.inputBuffer := start_inputBuffer
  obtain ⟨hsched, hstate, hone, hother⟩ := other_byte (by rw [hbuf]; exact hinv) hphase hreader
    (start_state.trans hconn) (by rw [hbuf]; exact hzero)
  obtain ⟨hdone, hsame, hresume⟩ := resume_of_pos hsched (by omega)
  have hmin := hhonours [.other (bytesArrive [0]), .resume unasked] ⟨hother, hresume, trivial⟩
    ⟨hdone, by rw [run_cons, run_cons, run_nil, hsame, hstate]⟩
  rw [run_cons, run_cons, run_nil, hsame, hone] at hmin
  omega

/-! ## The documented minimum -/

/-- **When `AsyncRead` honours its hint.** For every pattern of arriving bytes, the buffer holds `hint`
bytes at the end of the await exactly when those that were there and those that have arrived are
`hint`; and this is so for all patterns exactly when the hint is at most one, or at most what was there
at the start. -/
theorem honours_iff (hinv : life.conn.inputBuffer.Inv) (hconn : life.conn.state = .kConnected)
    (hwriter : life.conn.writer ≠ some h) :
    (∀ moments, Admissible (step h) (Possible h) (start life h hint) moments →
        (run (step h) (start life h hint) moments).Completed →
        (hint ≤ (run (step h) (start life h hint) moments).life.conn.inputBuffer.readableBytes
          ↔ hint ≤ life.conn.inputBuffer.readableBytes
            + (arrived h (start life h hint) moments).length))
      ∧ (Honours life h hint ↔ hint ≤ max 1 life.conn.inputBuffer.readableBytes) := by
  refine ⟨fun moments hok _ => by rw [run_readableBytes hinv hok], ?_, ?_⟩
  · intro hhonours
    by_contra hgt
    rcases Nat.eq_zero_or_pos life.conn.inputBuffer.readableBytes with hzero | hpos
    · exact first_byte_ends hinv hconn hzero (by omega) hhonours
    · exact too_few_present hconn hpos (by omega) hhonours
  · intro hle moments hok hdone
    rcases Nat.lt_or_ge 1 hint with hmany | hfew
    · -- all of it was there
      rw [run_readableBytes hinv hok]
      omega
    · rcases Nat.eq_zero_or_pos hint with hzero | hpos
      · rw [hzero]
        exact Nat.zero_le _
      · have := completed_pos hinv hwriter hpos hok hdone
        omega

theorem honours_iff_sample : Honours establishedLife 7 1 :=
  (honours_iff (by exact Buffer.new_inv) (by decide +kernel) (by decide +kernel)).2.mpr (by decide +kernel)

/-- **The hint is not honoured.** Two bytes are asked for on a connection that stays connected, one
arrives, and the await completes. -/
theorem hint_not_honoured : ¬ Honours establishedLife 7 2 := by
  intro hhonours
  have hmin := hhonours [.other (bytesArrive [0]), .resume unasked]
    ⟨⟨nofun, nofun, by decide +kernel⟩, by show InputFits _ (.readSome unasked); decide +kernel, trivial⟩
    ⟨by decide +kernel, by decide +kernel⟩
  exact absurd hmin (by decide +kernel)

end LightNet.Coro.AsyncRead
