/-
# LightNet.Net.Teardown — a channel is never taken out of its loop before it dies.

`connect_established`, which runs in the closure that creates a connection, puts the channel into its
loop, and every later change of its events does so again: `disable_all` on the way out included.  Only
`Channel::remove` takes it out, and nothing calls it for the channel of a connection.  So whenever the
last `shared_ptr` goes, on whichever way, `~Channel` finds the channel added, and its assertion fails.

A `Process` is the server with the `shared_ptr`s that user code holds.  Besides those, a connection is
held by the table of the `ConnectionManager` and by the closures of `remove_connection` that wait.
-/
import LightNet.Net.TcpServer

namespace LightNet.Net

open LightNet.Foundation LightNet.Core

/-! ## What keeps a channel in its loop -/

namespace TcpConnection

variable {c : TcpConnection}

theorem addedToLoop_appendOutput (h : c.addedToLoop = true) (data : Bytes) :
    (c.appendOutput data).addedToLoop = true := by
  rw [appendOutput]
  split
  · dsimp only
    split
    · exact h
    · rfl
  · exact h

theorem addedToLoop_sendInLoop {callback : TcpConnection → TcpConnection}
    (hcallback : ∀ c : TcpConnection, c.addedToLoop = true → (callback c).addedToLoop = true)
    (h : c.addedToLoop = true) (data : Bytes) (r : WriteResult) :
    (c.sendInLoop data r callback).addedToLoop = true := by
  rw [sendInLoop_eq]
  split
  · exact hcallback _ h
  · split
    · rfl
    · exact addedToLoop_appendOutput (c := c.wrote _) h _

theorem addedToLoop_send {callback : TcpConnection → TcpConnection}
    (hcallback : ∀ c : TcpConnection, c.addedToLoop = true → (callback c).addedToLoop = true)
    (h : c.addedToLoop = true) (data : Bytes) (r : WriteResult) :
    (c.send data r callback).addedToLoop = true := by
  rw [send]
  split
  · exact addedToLoop_sendInLoop hcallback h data r
  · exact h

theorem addedToLoop_shutdownInLoop (h : c.addedToLoop = true) : c.shutdownInLoop.addedToLoop = true := by
  rw [shutdownInLoop]
  dsimp only
  split <;> exact h

theorem addedToLoop_shutdown (h : c.addedToLoop = true) : c.shutdown.addedToLoop = true := by
  rw [shutdown_eq]
  split
  · exact addedToLoop_shutdownInLoop h
  · exact h

theorem addedToLoop_forceClose (h : c.addedToLoop = true) : c.forceClose.addedToLoop = true := by
  rw [forceClose]
  split
  · rfl
  · exact h

theorem addedToLoop_invoke (sc : Script) {c : TcpConnection} (h : c.addedToLoop = true) :
    (sc.invoke c).addedToLoop = true := by
  induction sc generalizing c with
  | done => exact h
  | send data r nested rest ihn ihr => exact ihr (addedToLoop_send (fun _ hc => ihn hc) h data r)
  | shutdown rest ih => exact ih (addedToLoop_shutdown h)
  | forceClose rest ih => exact ih (addedToLoop_forceClose h)

theorem addedToLoop_handleReadWith (h : c.addedToLoop = true) (r : ReadResult) (onMessage : Script) :
    (c.handleReadWith r onMessage.invoke).addedToLoop = true := by
  rw [handleReadWith]
  dsimp only
  split
  · split
    · exact h
    · exact addedToLoop_invoke onMessage (c := c.filled r) h
  · split
    · rfl
    · split
      · rfl
      · exact h

theorem addedToLoop_resumeWriter (h : c.addedToLoop = true) : c.resumeWriter.addedToLoop = true := by
  rw [resumeWriter]
  split <;> exact h

theorem addedToLoop_handleWrite (h : c.addedToLoop = true) (r : WriteResult) (onComplete : Script) :
    (c.handleWrite r onComplete.invoke).addedToLoop = true := by
  rw [handleWrite]
  split
  · split
    · dsimp only
      split
      · have hcallback : (onComplete.invoke (c.drained r.ret.toNat)).resumeWriter.addedToLoop = true :=
          addedToLoop_resumeWriter (addedToLoop_invoke onComplete rfl)
        split <;> exact hcallback
      · exact h
    · split
      · rfl
      · exact h
  · exact h

theorem addedToLoop_awaitInput (h : c.addedToLoop = true) (coro : Coro) (hint : Nat) :
    (c.awaitInput coro hint).addedToLoop = true := by
  rw [awaitInput]
  split
  · exact h
  · rw [asyncReadSuspend]
    split
    · exact h
    · rw [resumeReadCoro]
      dsimp only
      split
      · exact h
      · rfl

theorem addedToLoop_awaitOutput (h : c.addedToLoop = true) (coro : Coro) :
    (c.awaitOutput coro).addedToLoop = true := by
  rw [awaitOutput]
  split
  · exact h
  · rw [resumeWriteCoro]
    dsimp only
    split
    · rfl
    · exact h

end TcpConnection

namespace Closure

theorem addedToLoop_exec (cl : Closure) {c : TcpConnection} (h : c.addedToLoop = true) (r : WriteResult)
    (onComplete : Script) : (cl.exec c r onComplete.invoke).addedToLoop = true := by
  cases cl with
  | send data =>
      exact TcpConnection.addedToLoop_sendInLoop
        (fun _ hc => TcpConnection.addedToLoop_invoke onComplete hc) h data r
  | shutdown => exact TcpConnection.addedToLoop_shutdownInLoop h
  | forceClose => rfl

end Closure

/-- **No act takes the channel out of its loop.** -/
theorem Life.addedToLoop_act {s : Life} (h : s.conn.addedToLoop = true) (a : Act) :
    (s.act a).conn.addedToLoop = true := by
  show (s.onConn a).addedToLoop = true
  cases a with
  | connectEstablished => rfl
  | handleClose => rfl
  | handleError => rfl
  | connectDestroyed => exact h
  | handleRead r onMessage => exact TcpConnection.addedToLoop_handleReadWith h r onMessage
  | handleWrite r onComplete => exact TcpConnection.addedToLoop_handleWrite h r onComplete
  | send data r onComplete =>
      exact TcpConnection.addedToLoop_send
        (fun _ hc => TcpConnection.addedToLoop_invoke onComplete hc) h data r
  | shutdown => exact TcpConnection.addedToLoop_shutdown h
  | forceClose => exact TcpConnection.addedToLoop_forceClose h
  | retrieve n => exact h
  | readSome r =>
      show (s.conn.readSome r).2.addedToLoop = true
      rw [TcpConnection.readSome]
      split <;> exact h
  | awaitInput coro hint => exact TcpConnection.addedToLoop_awaitInput h coro hint
  | awaitOutput coro => exact TcpConnection.addedToLoop_awaitOutput h coro
  | post cl => exact h
  | runClosure r onComplete =>
      rw [onConn]
      split
      · exact h
      · exact Closure.addedToLoop_exec _ h r onComplete

/-! ## The server -/

namespace TcpServer

/-- The channel of every accepted connection is in its loop. -/
def AllAdded (srv : TcpServer) : Prop := ∀ c ∈ srv.conns, c.life.conn.addedToLoop = true

theorem allAdded_set {srv : TcpServer} (h : srv.AllAdded) (i : Nat) {d : Accepted}
    (hd : d.life.conn.addedToLoop = true) : ∀ c ∈ srv.conns.set i d, c.life.conn.addedToLoop = true := by
  intro c hc
  rcases List.mem_or_eq_of_mem_set hc with hold | rfl
  · exact h c hold
  · exact hd

theorem allAdded_removeInLoop {srv : TcpServer} (h : srv.AllAdded) (i : Nat) :
    (srv.removeInLoop i).AllAdded := by
  unfold removeInLoop
  split
  · exact h
  · rename_i c hget
    exact allAdded_set h i (Life.addedToLoop_act (h c (List.mem_of_getElem? hget)) .connectDestroyed)

theorem allAdded_removeConnection {srv : TcpServer} (h : srv.AllAdded) (i : Nat) (remote : Bool) :
    (srv.removeConnection i remote).AllAdded := by
  unfold removeConnection
  split
  · exact h
  · exact allAdded_removeInLoop h i

theorem allAdded_actOn {srv : TcpServer} (h : srv.AllAdded) (i : Nat) (a : Act) :
    (actOn i srv a).AllAdded := by
  cases hget : srv.conns[i]? with
  | none =>
      rw [actOn_of_none hget]
      exact h
  | some c =>
      have hset : (srv.setLife i c (c.life.act a)).AllAdded :=
        allAdded_set h i (Life.addedToLoop_act (h c (List.mem_of_getElem? hget)) a)
      rw [actOn_eq hget]
      split
      · exact allAdded_removeConnection hset i c.remote
      · exact hset

/-- A connection is created and established in one closure. -/
theorem allAdded_newConnection {srv : TcpServer} (h : srv.AllAdded) (remote : Bool) :
    (srv.newConnection remote).AllAdded := by
  unfold newConnection
  split
  · exact h
  · intro c hc
    rcases List.mem_append.mp hc with hold | hnew
    · exact h c hold
    · obtain rfl := List.mem_singleton.mp hnew
      rfl

theorem allAdded_runRemoval {srv : TcpServer} (h : srv.AllAdded) : srv.runRemoval.AllAdded := by
  unfold runRemoval
  split
  · exact h
  · rename_i i rest _
    have hrest : { srv with removals := rest }.AllAdded := h
    exact allAdded_removeInLoop hrest i

end TcpServer

/-! ## Who holds a connection -/

/-- The server, the connections that user code has a `shared_ptr` of, and those whose destructor has
run; `aborted` when the assertion of `~Channel` has failed in one. -/
structure Process where
  server : TcpServer
  handles : List Nat := []
  destroyed : List Nat := []
  aborted : Bool := false

namespace Process

/-- Some `shared_ptr` of connection `i` is left. -/
def Held (p : Process) (i : Nat) : Prop :=
  i ∈ (UnorderedMap.pairs p.server.connections).map Prod.snd ∨ i ∈ p.server.removals ∨ i ∈ p.handles

instance (p : Process) (i : Nat) : Decidable (p.Held i) := inferInstanceAs (Decidable (_ ∨ _ ∨ _))

/-- `~TcpConnection` of connection `i`, and in it `~Channel`, which asserts that the channel is not in
its loop. -/
def destroy (p : Process) (i : Nat) : Process :=
  match p.server.conns[i]? with
  | none => p
  | some c =>
      { p with
        destroyed := p.destroyed ++ [i]
        aborted := p.aborted || c.life.conn.addedToLoop }

/-- Connection `i` is destroyed when its last `shared_ptr` has gone. -/
def release (p : Process) (i : Nat) : Process :=
  if p.aborted = true ∨ i ∈ p.destroyed ∨ p.Held i then p else p.destroy i

/-- Every connection that nobody holds any more is destroyed. -/
def releaseAll (p : Process) : Process := (List.range p.server.conns.length).foldl release p

/-- A change of the server, and the end of the connections that it has let go. -/
def onServer (p : Process) (f : TcpServer → TcpServer) : Process :=
  if p.aborted then p else { p with server := f p.server }.releaseAll

/-- What happens: an operation of the server, or user code copies a `shared_ptr` or drops one. -/
inductive Op where
  | server (op : TcpServer.Op)
  | hold (i : Nat)
  | drop (i : Nat)
  deriving DecidableEq

/-- An act on connection `i`; the connection may die in the middle of an event. -/
def act (i : Nat) (p : Process) (a : Act) : Process := p.onServer fun srv => TcpServer.actOn i srv a

/-- One operation; after an assertion that fails there are no more. -/
def step (p : Process) (op : Op) : Process :=
  if p.aborted then p
  else
    match op with
    | .server (.accept remote) => p.onServer fun srv => srv.newConnection remote
    | .server (.event i revents rd onMessage wr onComplete) =>
        handleEvent revents (act i · .handleClose) (act i · .handleError)
          (act i · (.handleRead rd onMessage)) (act i · (.handleWrite wr onComplete)) p
    | .server (.call i a) => act i p a
    | .server .runRemoval => p.onServer TcpServer.runRemoval
    | .hold i => if i < p.server.conns.length then { p with handles := i :: p.handles } else p
    | .drop i => { p with handles := p.handles.erase i }.releaseAll

/-- A server that has accepted nothing. -/
def start (maxConnections : UInt64) : Process := { server := { maxConnections } }

/-! ## Every run -/

/-- Every channel is in its loop, and the connections that have been destroyed are those that nobody
holds. -/
structure Inv (p : Process) : Prop where
  added : p.server.AllAdded
  destroyed : ∀ i ∈ p.destroyed, ¬ p.Held i
    ∧ ∃ c, p.server.conns[i]? = some c ∧ c.life.conn.addedToLoop = true
  aborted : p.aborted = true ↔ p.destroyed ≠ []

theorem start_inv (maxConnections : UInt64) : (start maxConnections).Inv where
  added _ hc := absurd hc List.not_mem_nil
  destroyed _ hi := absurd hi List.not_mem_nil
  aborted := iff_of_false Bool.noConfusion fun hne => hne rfl

/-- While the process runs, nothing has been destroyed, and so whoever changes the server or drops a
`shared_ptr` need only see to the channels. -/
theorem Inv.of_running {p q : Process} (h : p.Inv) (hrunning : ¬ p.aborted = true)
    (hadded : q.server.AllAdded) (hdestroyed : q.destroyed = p.destroyed)
    (haborted : q.aborted = p.aborted) : q.Inv := by
  have hnone : p.destroyed = [] := by
    by_contra hne
    exact hrunning (h.aborted.mpr hne)
  refine ⟨hadded, fun i hi => ?_, ?_⟩
  · rw [hdestroyed, hnone] at hi
    exact absurd hi List.not_mem_nil
  · rw [haborted, hdestroyed]
    exact h.aborted

/-! ## Connections that are let go -/

theorem release_of_aborted {p : Process} (h : p.aborted = true) (i : Nat) : p.release i = p :=
  if_pos (.inl h)

theorem foldl_release_of_aborted {p : Process} (h : p.aborted = true) (is : List Nat) :
    is.foldl release p = p := by
  induction is with
  | nil => rfl
  | cons i is ih => rw [List.foldl_cons, release_of_aborted h, ih]

/-- The end of a connection that nobody holds: the assertion fails. -/
theorem release_of_not_held {p : Process} (h : p.Inv) (hrunning : ¬ p.aborted = true) {i : Nat}
    {c : Accepted} (hget : p.server.conns[i]? = some c) (hheld : ¬ p.Held i) :
    p.release i = { p with destroyed := p.destroyed ++ [i], aborted := true } := by
  have hfresh : ¬ (p.aborted = true ∨ i ∈ p.destroyed ∨ p.Held i) := by
    rintro (habort | hmem | hhold)
    · exact hrunning habort
    · exact hrunning (h.aborted.mpr (List.ne_nil_of_mem hmem))
    · exact hheld hhold
  have hadded : c.life.conn.addedToLoop = true := h.added c (List.mem_of_getElem? hget)
  rw [release, if_neg hfresh, destroy, hget]
  simp only [hadded, Bool.or_true]

theorem release_inv {p : Process} (h : p.Inv) (i : Nat) : (p.release i).Inv := by
  by_cases hstop : p.aborted = true ∨ p.Held i
  · have hsame : p.release i = p := if_pos (hstop.imp_right .inr)
    rwa [hsame]
  · obtain ⟨hrunning, hheld⟩ := not_or.mp hstop
    cases hget : p.server.conns[i]? with
    | none =>
        have hsame : p.release i = p := by
          rw [release]
          split
          · rfl
          · rw [destroy, hget]
        rwa [hsame]
    | some c =>
        rw [release_of_not_held h hrunning hget hheld]
        refine ⟨h.added, fun j hj => ?_, iff_of_true rfl (by simp)⟩
        rcases List.mem_append.mp hj with hold | hnew
        · exact h.destroyed j hold
        · obtain rfl := List.mem_singleton.mp hnew
          exact ⟨hheld, c, hget, h.added c (List.mem_of_getElem? hget)⟩

theorem foldl_release_inv {p : Process} (h : p.Inv) (is : List Nat) : (is.foldl release p).Inv := by
  induction is generalizing p with
  | nil => exact h
  | cons i is ih => exact ih (release_inv h i)

/-- If no assertion fails, every connection is held, and nothing happens. -/
theorem held_of_foldl_release {p : Process} (h : p.Inv) {is : List Nat}
    (his : ∀ i ∈ is, i < p.server.conns.length) (hrunning : ¬ (is.foldl release p).aborted = true) :
    is.foldl release p = p ∧ ∀ i ∈ is, p.Held i := by
  induction is with
  | nil => exact ⟨rfl, fun _ hi => absurd hi List.not_mem_nil⟩
  | cons i is ih =>
      rw [List.foldl_cons] at hrunning ⊢
      have hbefore : ¬ p.aborted = true := by
        intro habort
        rw [release_of_aborted habort, foldl_release_of_aborted habort] at hrunning
        exact hrunning habort
      have hheld : p.Held i := by
        by_contra hheld
        have hget := List.getElem?_eq_getElem (his i List.mem_cons_self)
        rw [release_of_not_held h hbefore hget hheld, foldl_release_of_aborted rfl] at hrunning
        exact hrunning rfl
      have hsame : p.release i = p := if_pos (.inr (.inr hheld))
      rw [hsame] at hrunning ⊢
      obtain ⟨hfold, hrest⟩ := ih (fun j hj => his j (List.mem_cons_of_mem i hj)) hrunning
      refine ⟨hfold, fun j hj => ?_⟩
      rcases List.mem_cons.mp hj with rfl | hj
      · exact hheld
      · exact hrest j hj

/-! ## Consistency -/

/-- Every accepted connection is held by someone. -/
def AllHeld (p : Process) : Prop := ∀ i < p.server.conns.length, p.Held i

/-- What holds between operations. -/
structure Consistent (p : Process) : Prop where
  inv : p.Inv
  held : ¬ p.aborted = true → p.AllHeld

theorem releaseAll_consistent {p : Process} (h : p.Inv) : p.releaseAll.Consistent := by
  refine ⟨foldl_release_inv h _, fun hrunning => ?_⟩
  obtain ⟨hsame, hheld⟩ := held_of_foldl_release h (fun i hi => List.mem_range.mp hi) hrunning
  rw [releaseAll, hsame]
  exact fun i hi => hheld i (List.mem_range.mpr hi)

theorem onServer_consistent {p : Process} (h : p.Consistent) {f : TcpServer → TcpServer}
    (hf : p.server.AllAdded → (f p.server).AllAdded) : (p.onServer f).Consistent := by
  unfold onServer
  split
  · exact h
  · rename_i hrunning
    exact releaseAll_consistent (h.inv.of_running hrunning (hf h.inv.added) rfl rfl)

theorem act_consistent {p : Process} (h : p.Consistent) (i : Nat) (a : Act) :
    (act i p a).Consistent :=
  onServer_consistent h fun hadded => TcpServer.allAdded_actOn hadded i a

theorem step_consistent {p : Process} (h : p.Consistent) (op : Op) : (p.step op).Consistent := by
  unfold step
  split
  · exact h
  · rename_i hrunning
    cases op with
    | server op =>
        cases op with
        | accept remote =>
            have haccept : p.server.AllAdded → (p.server.newConnection remote).AllAdded :=
              fun hadded => TcpServer.allAdded_newConnection hadded remote
            exact onServer_consistent h haccept
        | event i revents rd onMessage wr onComplete =>
            have hact : ∀ q a, Consistent q → (act i q a).Consistent := fun _ a hq => act_consistent hq i a
            dsimp only
            rw [handleEvent_eq_run]
            exact run_invariant_of_step hact _ h
        | call i a => exact act_consistent h i a
        | runRemoval =>
            have hremove : p.server.AllAdded → p.server.runRemoval.AllAdded :=
              TcpServer.allAdded_runRemoval
            exact onServer_consistent h hremove
    | hold i =>
        dsimp only
        split
        · refine ⟨h.inv.of_running hrunning h.inv.added rfl rfl, fun _ j hj => ?_⟩
          exact (h.held hrunning j hj).imp_right (Or.imp_right (List.mem_cons_of_mem i))
        · exact h
    | drop i => exact releaseAll_consistent (h.inv.of_running hrunning h.inv.added rfl rfl)

/-! ## The contract -/

/-- **The assertion of `~Channel` fails whenever a connection is destroyed.** For every limit and every
run of accepted connections, events, calls, removals, and `shared_ptr`s that are copied and dropped: the
channel of each connection that has been destroyed is still in its loop; and no assertion has failed if
and only if every accepted connection is still held by the table of the manager, by a removal that
waits, or by user code. -/
theorem destroyed_added (maxConnections : UInt64) (ops : List Op) :
    (∀ i ∈ (run step (start maxConnections) ops).destroyed,
        ∃ c, (run step (start maxConnections) ops).server.conns[i]? = some c
          ∧ c.life.conn.addedToLoop = true)
      ∧ ((run step (start maxConnections) ops).aborted = false
          ↔ (run step (start maxConnections) ops).AllHeld) := by
  have hstart : (start maxConnections).Consistent :=
    ⟨start_inv maxConnections, fun _ _ hi => absurd hi (Nat.not_lt_zero _)⟩
  have hstep : ∀ p op, Consistent p → (step p op).Consistent := fun _ op h => step_consistent h op
  obtain ⟨hinv, hheld⟩ := run_invariant_of_step hstep ops hstart
  refine ⟨fun i hi => (hinv.destroyed i hi).2, ?_⟩
  rw [← Bool.not_eq_true]
  refine ⟨hheld, fun hall habort => ?_⟩
  -- whatever has been destroyed is not held
  obtain ⟨i, hi⟩ := List.exists_mem_of_ne_nil _ (hinv.aborted.mp habort)
  obtain ⟨hnot, c, hget, -⟩ := hinv.destroyed i hi
  exact hnot (hall i (List.getElem?_eq_some_iff.mp hget).1)

/-- A client connects and closes: the connection is taken out of the table, and dies. -/
theorem closed_aborts :
    (run step (start 10) [.server (.accept false), .server (.event 0 EPOLLIN ⟨some [], 0⟩ .done ⟨0, 0⟩
        .done)]).destroyed = [0]
      ∧ (run step (start 10) [.server (.accept false), .server (.event 0 EPOLLIN ⟨some [], 0⟩ .done
          ⟨0, 0⟩ .done)]).aborted = true := by
  decide +kernel

end Process

end LightNet.Net
