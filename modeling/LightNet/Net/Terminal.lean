/-
# LightNet.Net.Terminal — is `kDisconnected` terminal?

`handle_close` leaves the connection shut: disconnected, with no interest set.  `StaysClosed` says
that an act from a closed connection changes no state, calls no `::write` and sets no interest.  The
state test of `send`, `shutdown` and `force_close` is made when the call is made, but a closure from
another thread runs later, and `resume_read_coro` and `resume_write_coro` make no test at all.
`Harmless` lists what may still arrive after a close; `terminal_iff` shows that the list is exact.
-/
import LightNet.Net.Lifecycle

namespace LightNet.Net

open LightNet.Foundation LightNet.Core

namespace Life

open TcpConnection

/-- The act calls `::write` on the socket. -/
def Writes (s : Life) : Act → Prop
  | .handleRead r onMessage =>
      s.conn.ReadsSome r ∧ s.conn.reader = none ∧ onMessage.Writes (s.conn.filled r)
  | .handleWrite _ _ => s.conn.isWriting = true
  | .send _ _ _ => s.conn.state = .kConnected ∧ s.conn.TriesDirect
  | .runClosure _ _ =>
      match s.queue with
      | .send _ :: _ => s.conn.TriesDirect
      | _ => False
  | _ => False

/-- The act changes no state, writes nothing and sets no interest. -/
structure StaysClosed (s : Life) (a : Act) : Prop where
  state : (s.act a).conn.state = s.conn.state
  no_write : ¬ s.Writes a
  wire : (s.act a).conn.wire = s.conn.wire
  reading : (s.act a).conn.isReading = true → s.conn.isReading = true
  writing : (s.act a).conn.isWriting = true → s.conn.isWriting = true

/-- What may arrive at a closed connection: no coroutine that would be registered, and from the queue
neither the closure of a `shutdown` nor that of a `send`, unless it sends nothing and finds unsent
bytes. -/
def Harmless (s : Life) : Act → Prop
  | .connectEstablished => False
  | .awaitInput h hint => s.registered (.awaitInput h hint) = []
  | .awaitOutput h => s.registered (.awaitOutput h) = []
  | .runClosure _ _ =>
      match s.queue with
      | .shutdown :: _ => False
      | .send data :: _ => data = [] ∧ s.conn.outputBuffer.readableBytes ≠ 0
      | _ => True
  | _ => True

instance (s : Life) : (a : Act) → Decidable (s.Harmless a)
  | .connectEstablished => isFalse id
  | .awaitInput _ _ | .awaitOutput _ => inferInstanceAs (Decidable (_ = _))
  | .runClosure _ _ =>
      match h : s.queue with
      | .shutdown :: _ => isFalse (by simp only [Harmless, h, not_false_eq_true])
      | .send data :: _ =>
          decidable_of_iff (data = [] ∧ s.conn.outputBuffer.readableBytes ≠ 0)
            (by simp only [Harmless, h])
      | .forceClose :: _ | [] => isTrue (by simp only [Harmless, h])
  | .connectDestroyed | .handleClose | .handleError | .handleRead _ _ | .handleWrite _ _
  | .send _ _ _ | .shutdown | .forceClose | .retrieve _ | .readSome _ | .post _ => isTrue trivial

/-! ## What does not write -/

theorem sendInLoop_wire {c : TcpConnection} (h : ¬ c.TriesDirect) (data : Bytes) (r : WriteResult)
    (callback : TcpConnection → TcpConnection) : (c.sendInLoop data r callback).wire = c.wire := by
  have happend : c.sendInLoop data r callback = c.appendOutput data := if_neg h
  rw [happend, (appendOutput_frame c data).2.1]

theorem send_wire {c : TcpConnection} (h : ¬ (c.state = .kConnected ∧ c.TriesDirect)) (data : Bytes)
    (r : WriteResult) (callback : TcpConnection → TcpConnection) :
    (c.send data r callback).wire = c.wire := by
  unfold send
  split
  · rename_i hconn
    exact sendInLoop_wire (fun hd => h ⟨hconn, hd⟩) data r callback
  · rfl

theorem shutdownInLoop_wire (c : TcpConnection) : c.shutdownInLoop.wire = c.wire := by
  unfold shutdownInLoop
  dsimp only
  split <;> rfl

theorem shutdown_wire (c : TcpConnection) : c.shutdown.wire = c.wire := by
  rw [shutdown_eq]
  split
  · exact shutdownInLoop_wire c
  · rfl

theorem forceClose_wire (c : TcpConnection) : c.forceClose.wire = c.wire := by
  unfold forceClose
  split <;> rfl

theorem invoke_wire (sc : Script) {c : TcpConnection} (h : ¬ sc.Writes c) :
    (sc.invoke c).wire = c.wire := by
  induction sc generalizing c with
  | done => rfl
  | send data r nested rest _ ih =>
      have hrest : (rest.invoke (c.send data r nested.invoke)).wire
          = (c.send data r nested.invoke).wire := ih fun hw => h (.inr hw)
      exact hrest.trans (send_wire (fun hw => h (.inl hw)) data r _)
  | shutdown rest ih => exact (ih h).trans (shutdown_wire c)
  | forceClose rest ih => exact (ih h).trans (forceClose_wire c)

/-- Only an act that calls `::write` gives bytes to the kernel. -/
theorem wire_of_not_writes {s : Life} {a : Act} (h : ¬ s.Writes a) :
    (s.act a).conn.wire = s.conn.wire := by
  show (s.onConn a).wire = s.conn.wire
  cases a with
  | connectEstablished | connectDestroyed | handleClose | handleError | retrieve | post => rfl
  | handleRead r onMessage =>
      rw [onConn_handleRead]
      split
      · rename_i hsome
        split
        · rfl
        · rename_i hnot
          have hreader : s.conn.reader = none := reader_eq_none hnot
          exact invoke_wire onMessage fun hw => h ⟨hsome, hreader, hw⟩
      · split <;> rfl
  | handleWrite r onComplete =>
      have hsame : s.onConn (.handleWrite r onComplete) = s.conn := if_neg h
      rw [hsame]
  | send data r onComplete => exact send_wire h data r _
  | shutdown => exact shutdown_wire s.conn
  | forceClose => exact forceClose_wire s.conn
  | readSome r =>
      show (s.conn.readSome r).2.wire = _
      unfold readSome
      split <;> rfl
  | awaitInput co hint =>
      rw [onConn_awaitInput, resumeReadCoro]
      dsimp only
      split_ifs <;> rfl
  | awaitOutput co =>
      rw [onConn_awaitOutput, resumeWriteCoro]
      dsimp only
      split_ifs <;> rfl
  | runClosure r onComplete =>
      unfold Writes at h
      simp only [onConn]
      split
      · rfl
      · rename_i cl rest hqueue
        cases cl with
        | send data =>
            simp only [hqueue] at h
            exact sendInLoop_wire h data r _
        | shutdown => exact shutdownInLoop_wire _
        | forceClose => rfl

/-! ## One act on a closed connection -/

/-- An act that leaves state, wire and interest alone. -/
theorem staysClosed_of_eq {s : Life} {a : Act} {c : TcpConnection} (h : s.onConn a = c)
    (hwrite : ¬ s.Writes a) (hstate : c.state = s.conn.state)
    (hreading : c.isReading = s.conn.isReading) (hwriting : c.isWriting = s.conn.isWriting) :
    s.StaysClosed a := by
  subst h
  exact ⟨hstate, hwrite, wire_of_not_writes hwrite, fun h => hreading ▸ h, fun h => hwriting ▸ h⟩

theorem staysClosed_of_same {s : Life} {a : Act} (h : s.onConn a = s.conn) (hwrite : ¬ s.Writes a) :
    s.StaysClosed a :=
  staysClosed_of_eq h hwrite rfl rfl rfl

theorem staysClosed_handleClose {s : Life} {a : Act} {c : TcpConnection} (hshut : s.conn.Shut)
    (h : s.onConn a = c.handleClose) (hwrite : ¬ s.Writes a) : s.StaysClosed a :=
  staysClosed_of_eq h hwrite hshut.state.symm hshut.isReading.symm hshut.isWriting.symm

/-- An event for reading: whatever `read_fd` brings, no callback gets through. -/
theorem staysClosed_handleRead {s : Life} (hshut : s.conn.Shut) (r : ReadResult)
    (onMessage : Script) : s.StaysClosed (.handleRead r onMessage) := by
  have hopen : ¬ (s.conn.filled r).IsOpen := hshut.not_isOpen
  obtain ⟨hsame, -, hwrites⟩ := onMessage.invoke_of_not_isOpen hopen
  have hno : ¬ s.Writes (.handleRead r onMessage) := fun h => hwrites h.2.2
  have honConn := s.onConn_handleRead r onMessage
  rw [hsame] at honConn
  split at honConn
  · split at honConn
    · exact staysClosed_of_eq honConn hno rfl rfl rfl
    · exact staysClosed_of_eq honConn hno rfl rfl rfl
  · split at honConn
    · exact staysClosed_handleClose hshut honConn hno
    · exact staysClosed_of_eq honConn hno rfl rfl rfl

/-- A coroutine may ask a closed connection for input as long as it is not registered. -/
theorem staysClosed_awaitInput_iff {s : Life} (hshut : s.conn.Shut) (h : Coro) (hint : Nat) :
    s.StaysClosed (.awaitInput h hint) ↔ s.registered (.awaitInput h hint) = [] := by
  have honConn := s.onConn_awaitInput h hint
  by_cases hready : s.conn.asyncReadReady hint = true
  · rw [if_pos hready] at honConn
    exact iff_of_true (staysClosed_of_same honConn id) (if_pos (.inl hready))
  · rw [if_neg hready] at honConn
    by_cases hsome : 0 < s.conn.inputBuffer.readableBytes
    · rw [if_pos hsome] at honConn
      refine iff_of_true ?_ (if_pos (.inr hsome))
      exact staysClosed_of_eq honConn id rfl rfl rfl
    · -- the registration turns reading on
      have hreg : s.registered (.awaitInput h hint) = [h] := if_neg fun hc => hc.elim hready hsome
      have hreading : (s.onConn (.awaitInput h hint)).isReading = true := by
        rw [honConn, if_neg hsome, resumeReadCoro]
        dsimp only
        rw [hshut.isReading]
        rfl
      refine iff_of_false ?_ ?_
      · intro hstays
        exact Bool.false_ne_true (hshut.isReading.symm.trans (hstays.reading hreading))
      · rw [hreg]
        exact List.cons_ne_nil _ _

theorem staysClosed_awaitOutput_iff {s : Life} (hshut : s.conn.Shut) (h : Coro) :
    s.StaysClosed (.awaitOutput h) ↔ s.registered (.awaitOutput h) = [] := by
  have honConn := s.onConn_awaitOutput h
  by_cases hzero : s.conn.outputBuffer.readableBytes = 0
  · rw [if_pos hzero] at honConn
    refine iff_of_true ?_ (if_pos hzero)
    exact staysClosed_of_eq honConn id rfl rfl rfl
  · -- unsent bytes: the registration turns writing on
    have hreg : s.registered (.awaitOutput h) = [h] := if_neg hzero
    have hwriting : (s.onConn (.awaitOutput h)).isWriting = true := by
      rw [honConn, if_neg hzero, resumeWriteCoro, if_pos ⟨hshut.isWriting, Nat.pos_of_ne_zero hzero⟩]
      rfl
    refine iff_of_false ?_ ?_
    · intro hstays
      exact Bool.false_ne_true (hshut.isWriting.symm.trans (hstays.writing hwriting))
    · rw [hreg]
      exact List.cons_ne_nil _ _

/-! ## Sending and closures -/

/-- The closure of a `send` finds the write interest off: it writes, or it sets the interest. -/
theorem staysClosed_send_iff {s : Life} (hshut : s.conn.Shut) {data : Bytes} {rest : List Closure}
    (hqueue : s.queue = .send data :: rest) (r : WriteResult) (onComplete : Script) :
    s.StaysClosed (.runClosure r onComplete)
      ↔ data = [] ∧ s.conn.outputBuffer.readableBytes ≠ 0 := by
  have honConn : s.onConn (.runClosure r onComplete)
      = s.conn.sendInLoop data r onComplete.invoke := by
    simp only [onConn, hqueue]
    rfl
  have hwrites : s.Writes (.runClosure r onComplete) ↔ s.conn.TriesDirect := by
    simp only [Writes, hqueue]
  by_cases hzero : s.conn.outputBuffer.readableBytes = 0
  · refine iff_of_false ?_ fun h => h.2 hzero
    intro hstays
    exact hstays.no_write (hwrites.mpr ⟨hshut.isWriting, hzero⟩)
  · have hindirect : ¬ s.conn.TriesDirect := fun h => hzero h.2
    have happend : s.onConn (.runClosure r onComplete) = s.conn.appendOutput data := by
      rw [honConn, sendInLoop]
      exact if_neg hindirect
    by_cases hnil : data = []
    · have hsame : s.onConn (.runClosure r onComplete) = s.conn := by
        rw [happend, hnil]
        rfl
      exact iff_of_true (staysClosed_of_same hsame fun h => hindirect (hwrites.mp h)) ⟨hnil, hzero⟩
    · refine iff_of_false ?_ fun h => hnil h.1
      intro hstays
      have hwriting : (s.onConn (.runClosure r onComplete)).isWriting = true := by
        rw [happend, appendOutput, if_pos (List.length_pos_iff.mpr hnil)]
        dsimp only
        rw [hshut.isWriting]
        rfl
      exact Bool.false_ne_true (hshut.isWriting.symm.trans (hstays.writing hwriting))

/-- The next closure of the loop. -/
theorem staysClosed_runClosure_iff {s : Life} (hshut : s.conn.Shut) (r : WriteResult)
    (onComplete : Script) :
    s.StaysClosed (.runClosure r onComplete) ↔ s.Harmless (.runClosure r onComplete) := by
  cases hqueue : s.queue with
  | nil =>
      have honConn : s.onConn (.runClosure r onComplete) = s.conn := by
        simp only [onConn, hqueue]
      simp only [Harmless, hqueue]
      have hno : ¬ s.Writes (.runClosure r onComplete) := by
        simp only [Writes, hqueue, not_false_eq_true]
      exact iff_of_true (staysClosed_of_same honConn hno) trivial
  | cons cl rest =>
      cases cl with
      | send data =>
          simp only [Harmless, hqueue]
          exact staysClosed_send_iff hshut hqueue r onComplete
      | shutdown =>
          -- the closure sets `kDisconnecting` without a test
          have hstate : (s.onConn (.runClosure r onComplete)).state = .kDisconnecting := by
            simp only [onConn, hqueue, Closure.exec, shutdownInLoop]
            split <;> rfl
          simp only [Harmless, hqueue]
          refine iff_of_false ?_ id
          intro hstays
          exact absurd (hstate.symm.trans (hstays.state.trans hshut.state)) (by decide)
      | forceClose =>
          have honConn : s.onConn (.runClosure r onComplete) = s.conn.handleClose := by
            simp only [onConn, hqueue]
            rfl
          have hno : ¬ s.Writes (.runClosure r onComplete) := by
            simp only [Writes, hqueue, not_false_eq_true]
          simp only [Harmless, hqueue]
          exact iff_of_true (staysClosed_handleClose hshut honConn hno) trivial

/-- **One act.** On a shut connection the acts that change nothing are the harmless ones. -/
theorem staysClosed_iff {s : Life} (hshut : s.conn.Shut) (a : Act) :
    s.StaysClosed a ↔ s.Harmless a := by
  have hopen := hshut.not_isOpen
  have hconn : ¬ s.conn.state = .kConnected := fun h => hopen (.inl h)
  cases a with
  | connectEstablished =>
      refine iff_of_false ?_ id
      intro hstays
      have hstate : ConnectionState.kConnected = .kDisconnected := hstays.state.trans hshut.state
      exact absurd hstate (by decide)
  | connectDestroyed =>
      exact iff_of_true (staysClosed_of_eq rfl id hshut.state.symm rfl rfl) trivial
  | handleClose => exact iff_of_true (staysClosed_handleClose hshut rfl id) trivial
  | handleError => exact iff_of_true (staysClosed_handleClose hshut rfl id) trivial
  | handleRead r onMessage => exact iff_of_true (staysClosed_handleRead hshut r onMessage) trivial
  | handleWrite r onComplete =>
      have hw : ¬ s.conn.isWriting = true := by
        rw [hshut.isWriting]
        exact Bool.false_ne_true
      exact iff_of_true (staysClosed_of_same (if_neg hw) hw) trivial
  | send data r onComplete =>
      exact iff_of_true (staysClosed_of_same (if_neg hconn) fun h => hconn h.1) trivial
  | shutdown => exact iff_of_true (staysClosed_of_same (if_neg hconn) id) trivial
  | forceClose => exact iff_of_true (staysClosed_of_same (if_neg hopen) id) trivial
  | retrieve n => exact iff_of_true (staysClosed_of_eq rfl id rfl rfl rfl) trivial
  | readSome r =>
      refine iff_of_true ?_ trivial
      have honConn : s.onConn (.readSome r) = (s.conn.readSome r).2 := rfl
      unfold readSome at honConn
      split at honConn
      · exact staysClosed_of_same honConn id
      · exact staysClosed_of_eq honConn id rfl rfl rfl
  | awaitInput h hint => exact staysClosed_awaitInput_iff hshut h hint
  | awaitOutput h => exact staysClosed_awaitOutput_iff hshut h
  | post cl => exact iff_of_true (staysClosed_of_same rfl id) trivial
  | runClosure r onComplete => exact staysClosed_runClosure_iff hshut r onComplete

/-! ## Whole runs -/

/-- Once closed, shut. -/
def ShutOnceClosed (s : Life) : Prop := s.Closed → s.conn.Shut

/-- An act on a connection that stays closed keeps it shut, and the act that closes shuts it. -/
theorem act_shutOnceClosed {s : Life} {a : Act} (h : s.ShutOnceClosed)
    (hstays : s.Closed → s.StaysClosed a) : (s.act a).ShutOnceClosed := by
  intro hclosed
  rcases (act_closed_iff s a).mp hclosed with hbefore | hcloses
  · have hshut := h hbefore
    have hstay := hstays hbefore
    refine ⟨hstay.state.trans hshut.state, ?_, ?_⟩
    · exact Bool.eq_false_of_not_eq_true fun hr =>
        Bool.false_ne_true (hshut.isReading.symm.trans (hstay.reading hr))
    · exact Bool.eq_false_of_not_eq_true fun hw =>
        Bool.false_ne_true (hshut.isWriting.symm.trans (hstay.writing hw))
  · exact ((act_spec s a).closed hcloses).1

/-- **`kDisconnected` is terminal exactly as long as nothing harmful arrives after the close.** Along
a run from a new connection, with calls of other threads queued and run in any order, every act that
follows a close leaves the state, the socket and the interests alone if and only if each of these acts
is harmless: no `connect_established`, no coroutine that is registered, no queued `shutdown`, and no
queued `send` but an empty one that finds unsent bytes. -/
theorem terminal_iff (acts : List Act) :
    Admissible act (fun s a => s.Closed → s.StaysClosed a) {} acts
      ↔ Admissible act (fun s a => s.Closed → s.Harmless a) {} acts := by
  have hstart : ShutOnceClosed {} := fun hclosed => absurd hclosed (by decide)
  have hiff : ∀ (s : Life) (a : Act), s.ShutOnceClosed →
      ((s.Closed → s.StaysClosed a) ↔ (s.Closed → s.Harmless a)) := by
    intro s a hs
    exact forall_congr' fun hclosed => staysClosed_iff (hs hclosed) a
  exact admissible_congr hiff (fun _ _ hs hstays => act_shutOnceClosed hs hstays) hstart

/-- Another thread calls `shutdown` while the connection is open; the peer closes before the closure
runs, and the closure then sets `kDisconnecting`. -/
theorem not_terminal :
    ¬ Admissible act (fun s a => s.Closed → s.StaysClosed a) {}
      [.connectEstablished, .post .shutdown, .handleRead ⟨some [], 0⟩ .done,
        .runClosure ⟨0, 0⟩ .done] := by
  rintro ⟨-, -, -, hlast, -⟩
  have hstate := (hlast (by decide +kernel)).state
  exact absurd hstate (by decide +kernel)

end Life

end LightNet.Net
