/-
# LightNet.Net.Counted — when connections are closed once and counted once.

A connection that has been closed lives on only while somebody holds it: the closure that is to remove it,
or user code, such as the coroutine that serves it.  Its fd stays registered for that time, and whatever
reaches `handle_close` closes it again.  If nobody holds it, the first close is the last one: the process
ends in `~Channel`, and the count is right up to there.
-/
import LightNet.Net.Teardown

namespace LightNet.Net

open LightNet.Foundation LightNet.Core

namespace Process

/-! ## The contract -/

/-- The act does not close connection `i` a second time.  A process that has ended does nothing. -/
def ClosesOnce (i : Nat) (p : Process) (a : Act) : Prop :=
  p.aborted = false → TcpServer.ClosesOnce i p.server a

/-- No act of the operation closes a closed connection, and an accepted connection gets an id that no
other one has. -/
def CountsOnce (p : Process) : Op → Prop
  | .server (.accept _) => p.aborted = false → p.server.FreshId
  | .server (.event i revents rd onMessage wr onComplete) =>
      Admissible (act i) (ClosesOnce i) p (dispatched revents rd onMessage wr onComplete)
  | .server (.call i a) => ClosesOnce i p a
  | .server .runRemoval | .hold _ | .drop _ => True

/-! ## The server inside the process -/

variable {p : Process}

theorem server_release (p : Process) (i : Nat) : (p.release i).server = p.server := by
  unfold release destroy
  split
  · rfl
  · split <;> rfl

theorem server_releaseAll (p : Process) : p.releaseAll.server = p.server := by
  have hfold : ∀ (is : List Nat) (p : Process), (is.foldl release p).server = p.server := by
    intro is
    induction is with
    | nil => exact fun _ => rfl
    | cons i is ih => exact fun p => (ih (p.release i)).trans (server_release p i)
  exact hfold _ p

theorem server_onServer (h : p.aborted = false) (f : TcpServer → TcpServer) :
    (p.onServer f).server = f p.server := by
  unfold onServer
  rw [if_neg (Bool.not_eq_true _ ▸ h), server_releaseAll]

theorem onServer_of_aborted (h : p.aborted = true) (f : TcpServer → TcpServer) : p.onServer f = p :=
  if_pos h

theorem step_of_aborted (h : p.aborted = true) (op : Op) : p.step op = p := if_pos h

theorem step_of_running (h : p.aborted = false) (op : Op) :
    p.step op = match op with
      | .server (.accept remote) => p.onServer fun srv => srv.newConnection remote
      | .server (.event i revents rd onMessage wr onComplete) =>
          run (act i) p (dispatched revents rd onMessage wr onComplete)
      | .server (.call i a) => act i p a
      | .server .runRemoval => p.onServer TcpServer.runRemoval
      | .hold i => if i < p.server.conns.length then { p with handles := i :: p.handles } else p
      | .drop i => { p with handles := p.handles.erase i }.releaseAll := by
  unfold step
  rw [if_neg (Bool.not_eq_true _ ▸ h)]
  cases op with
  | server op =>
      cases op with
      | event i revents rd onMessage wr onComplete => exact handleEvent_eq_run (act i) p _ _ _ _ _
      | accept _ | call _ _ | runRemoval => rfl
  | hold _ | drop _ => rfl

/-! ## Acts on one connection -/

theorem closesAt_le_act (p : Process) (i : Nat) (a : Act) (j : Nat) :
    p.server.closesAt j ≤ (act i p a).server.closesAt j := by
  cases hrunning : p.aborted with
  | true => rw [act, onServer_of_aborted hrunning]
  | false =>
      rw [act, server_onServer hrunning]
      exact TcpServer.closesAt_le_actOn p.server i a j

theorem closesAt_le_run (p : Process) (i : Nat) (acts : List Act) (j : Nat) :
    p.server.closesAt j ≤ (run (act i) p acts).server.closesAt j := by
  induction acts generalizing p with
  | nil => exact Nat.le_refl _
  | cons a acts ih => exact (closesAt_le_act p i a j).trans (ih _)

theorem act_counts (h : p.server.Consistent) {i : Nat} {a : Act} (hok : ClosesOnce i p a) :
    (act i p a).server.Consistent := by
  cases hrunning : p.aborted with
  | true =>
      rw [act, onServer_of_aborted hrunning]
      exact h
  | false =>
      rw [act, server_onServer hrunning]
      exact TcpServer.actOn_consistent h (hok hrunning)

/-- A second close shows. -/
theorem closesOnce_of_counted {i : Nat} {a : Act} (hcounted : (act i p a).server.closesAt i ≤ 1) :
    ClosesOnce i p a := by
  intro hrunning
  rw [act, server_onServer hrunning] at hcounted
  by_contra hno
  have htwo := TcpServer.two_le_closesAt hno
  omega

/-- Acts on one connection after which it has been closed at most once have not closed it twice. -/
theorem admissible_of_counted (h : p.server.Consistent) {i : Nat} {acts : List Act}
    (hcounted : (run (act i) p acts).server.Counted) : Admissible (act i) (ClosesOnce i) p acts := by
  induction acts generalizing p with
  | nil => trivial
  | cons a acts ih =>
      have hfirst : ClosesOnce i p a := by
        have hone := (TcpServer.once_iff _).mp hcounted.once i
        exact closesOnce_of_counted ((closesAt_le_run (act i p a) i acts i).trans hone)
      exact ⟨hfirst, ih (act_counts h hfirst) hcounted⟩

/-! ## One operation -/

theorem step_counts (h : p.server.Consistent) {op : Op} (hok : p.CountsOnce op) :
    (p.step op).server.Consistent := by
  cases hrunning : p.aborted with
  | true =>
      rw [step_of_aborted hrunning]
      exact h
  | false =>
      rw [step_of_running hrunning]
      cases op with
      | server op =>
          cases op with
          | accept remote =>
              dsimp only
              rw [server_onServer hrunning]
              exact TcpServer.newConnection_consistent h (hok hrunning)
          | event i revents rd onMessage wr onComplete =>
              have hact : ∀ (q : Process) a, q.server.Consistent → ClosesOnce i q a →
                  (act i q a).server.Consistent := fun _ _ hq hi => act_counts hq hi
              exact run_invariant hact h hok
          | call i a => exact act_counts h hok
          | runRemoval =>
              dsimp only
              rw [server_onServer hrunning]
              exact TcpServer.runRemoval_consistent h
      | hold i =>
          dsimp only
          split <;> exact h
      | drop i =>
          dsimp only
          rw [server_releaseAll]
          exact h

/-- A process that has ended closes nothing and accepts nothing. -/
theorem countsOnce_of_aborted (h : p.aborted = true) (op : Op) : p.CountsOnce op := by
  have hstop : ¬ p.aborted = false := by simp [h]
  have hacts : ∀ i acts, Admissible (act i) (ClosesOnce i) p acts := by
    intro i acts
    induction acts with
    | nil => trivial
    | cons a acts ih =>
        refine ⟨fun hrun => absurd hrun hstop, ?_⟩
        rwa [act, onServer_of_aborted h]
  cases op with
  | server op =>
      cases op with
      | accept remote => exact fun hrun => absurd hrun hstop
      | event i revents rd onMessage wr onComplete => exact hacts i _
      | call i a => exact fun hrun => absurd hrun hstop
      | runRemoval => trivial
  | hold i => trivial
  | drop i => trivial

/-- **One operation.** The count survives exactly the operations that count once. -/
theorem step_counted_iff (h : p.server.Consistent) (op : Op) :
    (p.step op).server.Counted ↔ p.CountsOnce op := by
  refine ⟨fun hcounted => ?_, fun hok => (step_counts h hok).counted⟩
  cases hrunning : p.aborted with
  | true => exact countsOnce_of_aborted hrunning op
  | false =>
      rw [step_of_running hrunning] at hcounted
      cases op with
      | server op =>
          cases op with
          | accept remote =>
              dsimp only at hcounted
              rw [server_onServer hrunning] at hcounted
              exact fun _ => TcpServer.freshId_of_counted h hcounted
          | event i revents rd onMessage wr onComplete => exact admissible_of_counted h hcounted
          | call i a =>
              have hrun : (run (act i) p [a]).server.Counted := hcounted
              exact (admissible_of_counted h hrun).1
          | runRemoval => trivial
      | hold i => trivial
      | drop i => trivial

/-! ## Every run -/

/-- **When connections are closed once and counted once.** For every limit and every run of accepted
connections, events with any mask and any results, calls, queued removals, and `shared_ptr`s that are
copied and dropped: in every state each connection has been closed at most once and the metric is the
size of the table, if and only if no act of the run closes a connection that is closed already, and no
connection is accepted under an id that is still in use. -/
theorem counted_iff (maxConnections : UInt64) (ops : List Op) :
    (∀ n, (run step (start maxConnections) (ops.take n)).server.Counted)
      ↔ Admissible step CountsOnce (start maxConnections) ops := by
  have hcounted : ∀ p : Process, p.server.Consistent → p.server.Counted := fun _ hp => hp.counted
  have hstep : ∀ (p : Process) op, p.server.Consistent → CountsOnce p op → (p.step op).server.Consistent :=
    fun _ _ hp hok => step_counts hp hok
  exact forall_take_iff_admissible hcounted (fun _ op hp => step_counted_iff hp op) hstep
    (TcpServer.new_consistent maxConnections)

/-- The peer has reset the connection. -/
def ECONNRESET : Nat := 104

/-- The coroutine that serves a connection holds it.  A reset arrives as one event with `EPOLLIN`,
`EPOLLERR` and `EPOLLHUP`: the error callback closes, and the read callback that follows meets the error
and closes again.  The metric has wrapped, and the process goes on. -/
theorem reset_counted_twice :
    ¬ (∀ n, (run step (start 100000) ([.server (.accept false), .hold 0,
          .server (.event 0 (EPOLLIN ||| EPOLLERR ||| EPOLLHUP) ⟨none, ECONNRESET⟩ .done ⟨0, 0⟩
            .done)].take n)).server.Counted)
      ∧ (run step (start 100000) [.server (.accept false), .hold 0,
          .server (.event 0 (EPOLLIN ||| EPOLLERR ||| EPOLLHUP) ⟨none, ECONNRESET⟩ .done ⟨0, 0⟩
            .done)]).server.activeConnections.toNat = 2 ^ 64 - 1
      ∧ (run step (start 100000) [.server (.accept false), .hold 0,
          .server (.event 0 (EPOLLIN ||| EPOLLERR ||| EPOLLHUP) ⟨none, ECONNRESET⟩ .done ⟨0, 0⟩
            .done)]).aborted = false := by
  refine ⟨fun h => ?_, by decide +kernel, by decide +kernel⟩
  have hmetric : (run step (start 100000) [.server (.accept false), .hold 0,
      .server (.event 0 (EPOLLIN ||| EPOLLERR ||| EPOLLHUP) ⟨none, ECONNRESET⟩ .done ⟨0, 0⟩
        .done)]).server.activeConnections.toNat ≠ UnorderedMap.size (run step (start 100000)
          [.server (.accept false), .hold 0, .server (.event 0 (EPOLLIN ||| EPOLLERR ||| EPOLLHUP)
            ⟨none, ECONNRESET⟩ .done ⟨0, 0⟩ .done)]).server.connections := by
    decide +kernel
  exact hmetric (h 3).active

end Process

end LightNet.Net
