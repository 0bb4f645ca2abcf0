/-
# LightNet.Net.Waiters — coroutines that are parked when the connection closes.

A coroutine is parked by `resume_read_coro` or `resume_write_coro` and released by `handle_read` when
bytes arrive or by `handle_write` when the last bytes are sent.  `handle_close` releases nobody.  So a
close strands whoever is parked, with one exception: the writer that the same `handle_write` resumes
after a callback of its own has closed the connection.  `no_coroutine_stranded_iff` says that this,
and a registration after the close, are the only ways to strand a coroutine.
-/
import LightNet.Net.Lifecycle

namespace LightNet.Net

open LightNet.Foundation LightNet.Core

namespace Life

open TcpConnection

/-- Nobody is parked, and everybody who was has been scheduled since. -/
structure NoneParked (s : Life) : Prop where
  reader : s.conn.reader = none
  writer : s.conn.writer = none
  waiting : s.waiting = []

/-- The invariant of the contract: once `handle_close` has run, nobody is parked. -/
def NoneStranded (s : Life) : Prop := s.Closed → s.NoneParked

/-- Nobody is parked before the act, but for the writer that the act resumes. -/
def FindsNobody (s : Life) : Act → Prop
  | .handleWrite r _ =>
      s.conn.reader = none ∧ (s.conn.WritesLast r ∨ s.conn.writer = none)
        ∧ s.waiting.diff (if s.conn.WritesLast r then s.conn.writer.toList else []) = []
  | _ => s.conn.reader = none ∧ s.conn.writer = none ∧ s.waiting = []

/-- An act that closes finds nobody parked, and an act after the close parks nobody. -/
def StrandsNobody (s : Life) (a : Act) : Prop :=
  (s.Closed → s.registered a = []) ∧ (s.Closes a → s.FindsNobody a)

/-! ## One act -/

/-- What is left to show after an act: whoever it does not release was not there. -/
theorem noneParked_act_iff (s : Life) (a : Act) :
    (s.act a).NoneParked
      ↔ s.readerAfter a = none ∧ s.writerAfter a = none
        ∧ s.waiting.diff (s.released a) = [] ∧ s.registered a = [] := by
  have hspec := act_spec s a
  constructor
  · rintro ⟨hreader, hwriter, hwaiting⟩
    rw [act_waiting] at hwaiting
    obtain ⟨hdiff, hreg⟩ := List.append_eq_nil_iff.mp hwaiting
    exact ⟨hspec.reader.symm.trans hreader, hspec.writer.symm.trans hwriter, hdiff, hreg⟩
  · rintro ⟨hreader, hwriter, hdiff, hreg⟩
    refine ⟨hspec.reader.trans hreader, hspec.writer.trans hwriter, ?_⟩
    rw [act_waiting, hdiff, hreg]
    rfl

/-- Where nobody is parked, nobody is after an act that registers nobody. -/
theorem NoneParked.act {s : Life} {a : Act} (h : s.NoneParked) (hreg : s.registered a = []) :
    (s.act a).NoneParked := by
  refine (noneParked_act_iff s a).mpr ⟨?_, ?_, ?_, hreg⟩
  · have hsame : s.readerAfter a = none ∨ s.readerAfter a = s.conn.reader := by
      unfold readerAfter
      split
      · split
        · exact .inl rfl
        · exact .inr rfl
      · rw [if_pos hreg]
        exact .inr rfl
      · exact .inr rfl
    exact hsame.elim id fun hs => hs.trans h.reader
  · have hsame : s.writerAfter a = none ∨ s.writerAfter a = s.conn.writer := by
      unfold writerAfter
      split
      · split
        · exact .inl rfl
        · exact .inr rfl
      · rw [if_pos hreg]
        exact .inr rfl
      · exact .inr rfl
    exact hsame.elim id fun hs => hs.trans h.writer
  · rw [h.waiting, List.nil_diff]

/-- **A close strands nobody exactly when it finds nobody.** -/
theorem noneParked_of_closes_iff {s : Life} {a : Act} (hcloses : s.Closes a) :
    (s.act a).NoneParked ↔ s.FindsNobody a := by
  rw [noneParked_act_iff]
  cases a with
  | handleRead r onMessage =>
      -- a read that gets bytes for a parked coroutine does not call the callback, so cannot close
      have hquiet : s.conn.ReadsSome r → s.conn.reader = none := by
        intro hsome
        rcases hcloses with hend | ⟨-, hnone, -⟩
        · have hpos : 0 < (s.conn.inputBuffer.readFd r.incoming).1 := hsome
          rcases hend with hend | hend
          · omega
          · omega
        · exact hnone
      have hreleased : s.released (.handleRead r onMessage) = [] := by
        by_cases hsome : s.conn.ReadsSome r
        · rw [released, if_pos hsome, hquiet hsome]
          rfl
        · exact if_neg hsome
      have hafter : s.readerAfter (.handleRead r onMessage) = s.conn.reader := by
        by_cases hsome : s.conn.ReadsSome r
        · rw [readerAfter, if_pos hsome, hquiet hsome]
        · exact if_neg hsome
      rw [hreleased, hafter]
      simp only [writerAfter, FindsNobody, registered, List.diff_nil, and_true]
  | handleWrite r onComplete =>
      have hafter : s.writerAfter (.handleWrite r onComplete) = none
          ↔ s.conn.WritesLast r ∨ s.conn.writer = none := by
        by_cases hlast : s.conn.WritesLast r
        · exact iff_of_true (if_pos hlast) (.inl hlast)
        · rw [writerAfter, if_neg hlast]
          exact (or_iff_right hlast).symm
      rw [hafter]
      simp only [readerAfter, FindsNobody, released, registered, and_true]
  | handleClose | handleError | send | forceClose | runClosure =>
      simp only [readerAfter, writerAfter, FindsNobody, released, registered, List.diff_nil, and_true]
  | connectEstablished | connectDestroyed | shutdown | retrieve | readSome | awaitInput | awaitOutput
  | post => exact hcloses.elim

/-- **One act.** The contract survives exactly the acts that strand nobody. -/
theorem noneStranded_act_iff {s : Life} {a : Act} (h : s.NoneStranded) :
    (s.act a).NoneStranded ↔ s.StrandsNobody a := by
  constructor
  · intro hafter
    refine ⟨fun hclosed => ?_, fun hcloses => ?_⟩
    · exact ((noneParked_act_iff s a).mp (hafter ((act_closed_iff s a).mpr (.inl hclosed)))).2.2.2
    · exact (noneParked_of_closes_iff hcloses).mp (hafter ((act_closed_iff s a).mpr (.inr hcloses)))
  · rintro ⟨hreg, hfinds⟩ hafter
    rcases (act_closed_iff s a).mp hafter with hclosed | hcloses
    · exact (h hclosed).act (hreg hclosed)
    · exact (noneParked_of_closes_iff hcloses).mpr (hfinds hcloses)

/-! ## The contract -/

/-- **When no coroutine is stranded by a close.** In every state of a run from a new connection in
which `handle_close` has run, no reader and no writer is pending and every registered coroutine has
been scheduled, if and only if every act of the run that closes finds nobody parked (but the writer
that the act itself resumes) and no act after a close parks anybody. -/
theorem no_coroutine_stranded_iff (acts : List Act) :
    (∀ n, (run act {} (acts.take n)).NoneStranded) ↔ Admissible act StrandsNobody {} acts := by
  have hstart : NoneStranded {} := fun hclosed => absurd hclosed (by decide)
  refine forall_take_iff_admissible (fun s hs => hs) (fun s a hs => noneStranded_act_iff hs) ?_ hstart
  intro s a hs hok
  exact (noneStranded_act_iff hs).mpr hok

/-- A coroutine waits for input, and the peer closes: the end of the stream wakes nobody. -/
theorem coroutine_stranded :
    ¬ ∀ n, (run act {} ([.connectEstablished, .awaitInput 7 1,
      .handleRead ⟨some [], 0⟩ .done].take n)).NoneStranded := by
  intro h
  have hparked := (h 3 (by decide +kernel)).reader
  exact absurd hparked (by decide +kernel)

end Life

end LightNet.Net
