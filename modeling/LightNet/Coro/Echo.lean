/-
# LightNet.Coro.Echo — `echo_session` of `examples/echo_server.cpp`.

The session writes back what is in the input buffer and takes it out only after the write: while the
write is away the bytes are still there, and others may have come behind them.  `Echoes` is the account
at every moment: the bytes taken out and the bytes in the buffer are the bytes received, and what has
been written are the bytes taken out and those of the write that is away.
-/
import LightNet.Coro.Served

namespace LightNet.Coro.Echo

open LightNet.Foundation LightNet.Core LightNet.Net LightNet.Coro

/-- Where the session is; a write that is away is one of `n` bytes. -/
inductive Control where
  | loop
  | reading
  | writing (n : Nat)
  | done
  deriving DecidableEq

/-- The session with its connection, and what the socket has delivered to it so far. -/
structure Session where
  life : Life := establishedLife
  control : Control := .loop
  received : Bytes := []

/-- What the kernel answers to a read and a write. -/
structure Answers where
  read : ReadResult
  write : WriteResult

/-- What happens next: the session goes on, or something else happens to its connection. -/
inductive Move where
  | other (a : OtherAct)
  | resume (ans : Answers)

/-- One step of the session `h`; no `write_complete_callback_` is set. -/
def resume (h : Coro) (s : Session) (ans : Answers) : Session :=
  match s.control with
  | .loop =>
      if s.life.conn.isConnected then
        { s with life := s.life.act (.awaitInput h 1), control := .reading }
      else { s with life := s.life.act .shutdown, control := .done }
  | .reading =>
      let life := s.life.act (.readSome ans.read)
      let received := s.received ++ incoming s.life (.readSome ans.read)
      let buf := life.conn.inputBuffer
      if buf.readableBytes = 0 then { life := life.act .shutdown, control := .done, received }
      else
        { life := asyncWrite life h (buf.peek buf.readableBytes) ans.write .done
          control := .writing buf.readableBytes
          received }
  | .writing n => { s with life := s.life.act (.retrieve n), control := .loop }
  | .done => s

/-- What the move does. -/
def move (h : Coro) (s : Session) : Move → Session
  | .other a =>
      { s with life := s.life.act a.val, received := s.received ++ incoming s.life a.val }
  | .resume ans => resume h s ans

/-! ## What is asked of the moves -/

/-- Neither the unread input nor the bytes that wait to be written outgrow their buffer. -/
def FitsBuffers (s : Session) : Move → Prop
  | .other a => InputFits s.life a.val
  | .resume ans =>
      s.control = .reading → InputFits s.life (.readSome ans.read)
        ∧ (let conn := (s.life.act (.readSome ans.read)).conn
          conn.state = .kConnected →
            conn.outputBuffer.Fits (conn.sendRest conn.inputBuffer.readable ans.write).length)

/-- Nobody else sends on the connection. -/
def SendsAlone (_ : Session) : Move → Prop
  | .other a => a.val.Silent
  | .resume _ => True

instance (s : Session) : ∀ m, Decidable (FitsBuffers s m)
  | .other _ => inferInstanceAs (Decidable (InputFits _ _))
  | .resume _ => inferInstanceAs (Decidable (_ → _ ∧ _))

instance (s : Session) : ∀ m, Decidable (SendsAlone s m)
  | .other a => inferInstanceAs (Decidable a.val.Silent)
  | .resume _ => isTrue trivial

/-! ## The account -/

/-- The bytes of the buffer whose write is away. -/
def inFlight (s : Session) : Bytes :=
  match s.control with
  | .writing n => s.life.conn.inputBuffer.readable.take n
  | _ => []

/-- The bytes `taken` have been taken out of the buffer, and the bytes `echoed` written. -/
structure Echoes (s : Session) (taken echoed : Bytes) : Prop where
  inputInv : s.life.conn.inputBuffer.Inv
  received : taken ++ s.life.conn.inputBuffer.readable = s.received
  away : ∀ n, s.control = .writing n → n ≤ s.life.conn.inputBuffer.readable.length
  echoed_front : echoed <+: taken ++ inFlight s
  echoed_eq : s.life.conn.state = .kConnected → echoed = taken ++ inFlight s
  delivers : s.life.Delivers echoed

variable {h : Coro} {s : Session} {taken echoed : Bytes}

/-! ## Every move keeps it -/

/-- **An act on the connection** that only reads keeps the account. -/
theorem Echoes.act (hs : Echoes s taken echoed) {a : Act} (hestablish : a ≠ .connectEstablished)
    (hretrieve : ∀ n, a ≠ .retrieve n) (hfits : InputFits s.life a) (hsilent : a.Silent)
    {s' : Session} (hlife : s'.life = s.life.act a)
    (hreceived : s'.received = s.received ++ incoming s.life a)
    (hcontrol : s'.control = s.control ∨ inFlight s = [] ∧ ∀ n, s'.control ≠ .writing n) :
    Echoes s' taken echoed := by
  obtain ⟨hinv, hread⟩ := act_readable hs.inputInv hretrieve hfits
  -- what arrives comes behind the bytes that are away
  have hflight : inFlight s' = inFlight s := by
    rcases hcontrol with hsame | ⟨hnone, hidle⟩
    · unfold inFlight
      rw [hsame, hlife, hread]
      cases hwriting : s.control with
      | writing n => exact List.take_append_of_le_length (hs.away n hwriting)
      | loop | reading | done => rfl
    · rw [hnone]
      unfold inFlight
      split
      · rename_i n hwriting
        exact absurd hwriting (hidle n)
      · rfl
  constructor
  · rw [hlife]
    exact hinv
  · rw [hlife, hread, hreceived, ← hs.received, List.append_assoc]
  · intro n hwriting
    rw [hlife, hread, List.length_append]
    rcases hcontrol with hsame | ⟨-, hidle⟩
    · exact Nat.le_add_right_of_le (hs.away n (hsame ▸ hwriting))
    · exact absurd hwriting (hidle n)
  · rw [hflight]
    exact hs.echoed_front
  · intro hconn
    rw [hlife] at hconn
    rw [hflight]
    exact hs.echoed_eq (not_imp_not.mp (fun hne => Life.act_not_connected hne hestablish) hconn)
  · rw [hlife]
    exact hs.delivers.act hsilent hestablish

/-- **One read, and the write of all that is there.** -/
theorem Echoes.reading (hs : Echoes s taken echoed) {ans : Answers} (hcontrol : s.control = .reading)
    (hfits : FitsBuffers s (.resume ans)) : ∃ echoed', Echoes (resume h s ans) taken echoed' := by
  obtain ⟨hinput, houtput⟩ := hfits hcontrol
  have hidle : inFlight s = [] := by rw [inFlight, hcontrol]
  -- the read by itself
  have hread : Echoes
      { life := s.life.act (.readSome ans.read), control := .loop,
        received := s.received ++ incoming s.life (.readSome ans.read) } taken echoed :=
    hs.act (a := .readSome ans.read) nofun nofun hinput trivial rfl rfl (.inr ⟨hidle, nofun⟩)
  simp only [resume, hcontrol]
  generalize s.received ++ incoming s.life (.readSome ans.read) = received at *
  generalize s.life.act (.readSome ans.read) = life at *
  have hinv : life.conn.inputBuffer.Inv := hread.inputInv
  split
  · exact ⟨echoed, hread.act (a := .shutdown) nofun nofun trivial trivial rfl
      (List.append_nil _).symm (.inr ⟨rfl, nofun⟩)⟩
  · have hbuf := asyncWrite_inputBuffer life h life.conn.inputBuffer.readable ans.write .done
    have hdone : Script.done.Silent := trivial
    have hsent := asyncWrite_delivers hread.delivers h hdone houtput
    rw [hinv.peek_readableBytes, hinv.readableBytes_eq_length]
    refine ⟨_, ?_, ?_, ?_, ?_, ?_, hsent⟩
    · rw [← hbuf] at hinv
      exact hinv
    · dsimp only
      rw [hbuf]
      exact hread.received
    · intro n hn
      obtain rfl := Control.writing.inj hn
      dsimp only
      rw [hbuf]
    · have hfront : echoed <+: taken ++ [] := hread.echoed_front
      simp only [inFlight, hbuf, List.take_length]
      rw [List.append_nil] at hfront
      split
      · rename_i hconn
        have hall : echoed = taken := (hread.echoed_eq hconn).trans (List.append_nil _)
        exact hall ▸ List.prefix_refl _
      · exact hfront.trans (List.prefix_append _ _)
    · intro hnow
      have hconn : life.conn.state = .kConnected :=
        not_imp_not.mp (fun hne => asyncWrite_not_connected hne h _ ans.write .done) hnow
      have hall : echoed = taken ++ [] := hread.echoed_eq hconn
      rw [if_pos hconn, hall, List.append_nil]
      simp only [inFlight, hbuf, List.take_length]

/-- **The bytes written are taken out**, and those that came meanwhile stay. -/
theorem Echoes.writing (hs : Echoes s taken echoed) {n : Nat} (hcontrol : s.control = .writing n)
    (ans : Answers) :
    Echoes (resume h s ans) (taken ++ s.life.conn.inputBuffer.readable.take n) echoed := by
  have hread := Buffer.retrieve_readable hs.inputInv n
  have hprefix := hs.echoed_front
  have hall := hs.echoed_eq
  simp only [inFlight, hcontrol] at hprefix hall
  simp only [resume, hcontrol]
  refine ⟨Buffer.retrieve_inv hs.inputInv n, ?_, nofun, ?_, ?_, hs.delivers.act (a := .retrieve n) trivial nofun⟩
  · show _ ++ (s.life.conn.inputBuffer.retrieve n).readable = s.received
    rw [hread, List.append_assoc, List.take_append_drop]
    exact hs.received
  · simp only [inFlight, List.append_nil]
    exact hprefix
  · intro hconn
    simp only [inFlight, List.append_nil]
    exact hall hconn

/-- **One move.** -/
theorem Echoes.move (hs : Echoes s taken echoed) {m : Move} (hfits : FitsBuffers s m)
    (halone : SendsAlone s m) : ∃ taken' echoed', Echoes (move h s m) taken' echoed' := by
  cases m with
  | other a =>
      exact ⟨taken, echoed, hs.act a.property.1 a.property.2 hfits halone rfl rfl (.inl rfl)⟩
  | resume ans =>
      show ∃ taken' echoed', Echoes (resume h s ans) taken' echoed'
      cases hcontrol : s.control with
      | loop =>
          have hidle : inFlight s = [] := by rw [inFlight, hcontrol]
          refine ⟨taken, echoed, ?_⟩
          simp only [resume, hcontrol]
          split
          · exact hs.act (a := .awaitInput h 1) nofun nofun trivial trivial rfl
              (List.append_nil _).symm (.inr ⟨hidle, nofun⟩)
          · exact hs.act (a := .shutdown) nofun nofun trivial trivial rfl (List.append_nil _).symm
              (.inr ⟨hidle, nofun⟩)
      | reading => exact ⟨taken, hs.reading hcontrol hfits⟩
      | writing n => exact ⟨_, echoed, hs.writing hcontrol ans⟩
      | done =>
          refine ⟨taken, echoed, ?_⟩
          simp only [resume, hcontrol]
          exact hs

/-! ## Whole runs -/

theorem echoes_start : Echoes {} [] [] where
  inputInv := Buffer.new_inv
  received := rfl
  away _ hn := absurd hn nofun
  echoed_front := List.prefix_refl _
  echoed_eq _ := rfl
  delivers := Life.delivers_established

/-- **The echo is exact.** Whatever the kernel answers, however the bytes arrive, and whatever else
happens to the connection but a send, as long as nothing outgrows its buffer: the peer gets back a front
part of what it has sent, and while the connection is connected everything it has sent is on the wire,
waits to be written, or has not been looked at yet — in this order, each byte once. -/
theorem echo_exact (h : Coro) (moves : List Move) (hfits : Admissible (move h) FitsBuffers {} moves)
    (halone : Admissible (move h) SendsAlone {} moves) :
    let s := run (move h) {} moves
    s.life.conn.wire <+: s.received
      ∧ (s.life.conn.state = .kConnected →
        s.life.conn.wire ++ s.life.conn.outputBuffer.readable
          ++ s.life.conn.inputBuffer.readable.drop (inFlight s).length = s.received) := by
  intro s
  have hstep : ∀ s m, (∃ taken echoed, Echoes s taken echoed) → FitsBuffers s m ∧ SendsAlone s m →
      ∃ taken echoed, Echoes (Echo.move h s m) taken echoed :=
    fun s m ⟨_, _, hs⟩ hok => hs.move hok.1 hok.2
  obtain ⟨taken, echoed, hs⟩ : ∃ taken echoed, Echoes s taken echoed :=
    run_invariant hstep ⟨[], [], echoes_start⟩ (hfits.and halone)
  have hflight : inFlight s ++ s.life.conn.inputBuffer.readable.drop (inFlight s).length
      = s.life.conn.inputBuffer.readable := by
    unfold inFlight
    split
    · rename_i n hcontrol
      rw [List.length_take_of_le (hs.away n hcontrol), List.take_append_drop]
    · rfl
  have hreceived : taken ++ inFlight s ++ s.life.conn.inputBuffer.readable.drop (inFlight s).length
      = s.received := by
    rw [List.append_assoc, hflight]
    exact hs.received
  constructor
  · have hfront : s.life.conn.wire <+: taken ++ inFlight s :=
      ((List.prefix_append _ _).trans hs.delivers.accounts.front).trans hs.echoed_front
    rw [← hreceived]
    exact hfront.trans (List.prefix_append _ _)
  · intro hconn
    rw [hs.delivers.connected hconn, hs.echoed_eq hconn]
    exact hreceived

/-- Three bytes, of which the kernel takes one at first; another two come while the write is away. -/
def shortWrite : List Move :=
  [.resume ⟨⟨none, 11⟩, ⟨0, 0⟩⟩, .other (bytesArrive [1, 2, 3]), .resume ⟨⟨none, 11⟩, ⟨1, 0⟩⟩,
    .other (bytesArrive [4, 5]), .resume ⟨⟨none, 11⟩, ⟨0, 0⟩⟩]

theorem echo_exact_sample :
    (run (move 7) {} shortWrite).life.conn.wire = [1]
      ∧ (run (move 7) {} shortWrite).life.conn.outputBuffer.readable = [2, 3]
      ∧ (run (move 7) {} shortWrite).life.conn.wire <+: (run (move 7) {} shortWrite).received := by
  exact ⟨by decide +kernel, by decide +kernel,
    (echo_exact 7 shortWrite (by decide +kernel) (by decide +kernel)).1⟩

end LightNet.Coro.Echo
