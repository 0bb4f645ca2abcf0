/-
# LightNet.Net.TcpServer — the table of connections and its metric.

Three classes keep the count: `TcpConnection` calls `close_callback_`, `TcpServer` turns that into a
closure on its own loop, and `ConnectionManager` takes the connection out of its table and decrements
the metric, the latter whether the connection was still in the table or not.  The guard against a
second close is in `force_close` only: `handle_close` closes again whenever it is reached.

Here is what each operation does, and that the count survives as long as none closes a connection a
second time.  Who holds the connections, and when they are destroyed, is in `Teardown`.

A connection is named by its place in `conns`, in which it stays after it has been removed, since
its fd stays registered and events may go on arriving.  `close_callback_` runs in the middle of
`handle_close`; where it runs at once, the rest of the act does not depend on what it does, so it is
taken after the act.
-/
import LightNet.Foundation.UnorderedMap
import LightNet.Net.Lifecycle

namespace LightNet.Net

open LightNet.Foundation LightNet.Core

/-- An accepted connection: its id, and whether its loop is another one than the server's. -/
structure Accepted where
  id : UInt64
  remote : Bool
  life : Life

/-- `lightnet::TcpServer` with its `ConnectionManager` and the two metrics of connections.  `removals`
are the closures of `remove_connection` that wait on the server's loop. -/
structure TcpServer where
  maxConnections : UInt64 := 100000
  nextId : UInt64 := 1
  connections : UnorderedMap UInt64 Nat := ∅
  connectionsTotal : UInt64 := 0
  activeConnections : UInt64 := 0
  conns : List Accepted := []
  removals : List Nat := []

namespace TcpServer

/-- What happens to the server: a connection is accepted (on a loop of its own, or on the server's),
an event or another act arrives at a connection, or the next queued removal runs. -/
inductive Op where
  | accept (remote : Bool)
  | event (i : Nat) (revents : UInt32) (rd : ReadResult) (onMessage : Script) (wr : WriteResult)
      (onComplete : Script)
  | call (i : Nat) (a : Act)
  | runRemoval
  deriving DecidableEq

/-- `ConnectionManager::create`, and `connect_established`; past the limit the fd is closed. -/
def newConnection (srv : TcpServer) (remote : Bool) : TcpServer :=
  if srv.maxConnections.toNat ≤ UnorderedMap.size srv.connections then srv
  else
    { srv with
      nextId := srv.nextId + 1
      connections := UnorderedMap.assign srv.nextId srv.conns.length srv.connections
      connectionsTotal := srv.connectionsTotal + 1
      activeConnections := srv.activeConnections + 1
      conns := srv.conns ++ [⟨srv.nextId, remote, Life.act {} .connectEstablished⟩] }

/-- The closure of `remove_connection`: `ConnectionManager::remove`, and `connect_destroyed`. -/
def removeInLoop (srv : TcpServer) (i : Nat) : TcpServer :=
  match srv.conns[i]? with
  | none => srv
  | some c =>
      { srv with
        connections := srv.connections.erase c.id
        activeConnections := srv.activeConnections - 1
        conns := srv.conns.set i { c with life := c.life.act .connectDestroyed } }

/-- `remove_connection`, the `close_callback_` of connection `i`. -/
def removeConnection (srv : TcpServer) (i : Nat) (remote : Bool) : TcpServer :=
  if remote then { srv with removals := srv.removals ++ [i] } else srv.removeInLoop i

/-- An act on connection `i`. -/
def actOn (i : Nat) (srv : TcpServer) (a : Act) : TcpServer :=
  match srv.conns[i]? with
  | none => srv
  | some c =>
      let srv := { srv with conns := srv.conns.set i { c with life := c.life.act a } }
      -- an act closes at most once (`Life.act_spec`)
      if c.life.conn.closes < (c.life.act a).conn.closes then srv.removeConnection i c.remote
      else srv

/-- The next closure that waits runs. -/
def runRemoval (srv : TcpServer) : TcpServer :=
  match srv.removals with
  | [] => srv
  | i :: rest => { srv with removals := rest }.removeInLoop i

/-! ## The contract -/

/-- Every connection has been closed at most once, and the metric is the size of the table. -/
structure Counted (srv : TcpServer) : Prop where
  once : ∀ c ∈ srv.conns, c.life.conn.closes ≤ 1
  active : srv.activeConnections.toNat = UnorderedMap.size srv.connections

/-- The act does not close connection `i` a second time. -/
def ClosesOnce (i : Nat) (srv : TcpServer) (a : Act) : Prop :=
  ∀ c ∈ srv.conns[i]?, c.life.Closed → ¬ c.life.Closes a

/-- A connection that is accepted gets an id that no other one has. -/
def FreshId (srv : TcpServer) : Prop :=
  UnorderedMap.size srv.connections < srv.maxConnections.toNat → srv.nextId ∉ srv.connections

/-! ## How often a connection has been closed -/

/-- The server after an act on connection `i`, before the callback. -/
def setLife (srv : TcpServer) (i : Nat) (c : Accepted) (life : Life) : TcpServer :=
  { srv with conns := srv.conns.set i { c with life } }

theorem getElem?_setLife_self {srv : TcpServer} {i : Nat} {c d : Accepted}
    (hget : srv.conns[i]? = some d) (life : Life) :
    (srv.setLife i c life).conns[i]? = some { c with life } :=
  List.getElem?_set_self (List.getElem?_eq_some_iff.mp hget).1

theorem getElem?_setLife_ne {i j : Nat} (hj : j ≠ i) (srv : TcpServer) (c : Accepted) (life : Life) :
    (srv.setLife i c life).conns[j]? = srv.conns[j]? :=
  List.getElem?_set_ne (Ne.symm hj)

/-- The closes of connection `j`. -/
def closesAt (srv : TcpServer) (j : Nat) : Nat := (srv.conns[j]?).elim 0 fun c => c.life.conn.closes

theorem closesAt_of_getElem? {srv : TcpServer} {j : Nat} {c : Accepted} (h : srv.conns[j]? = some c) :
    srv.closesAt j = c.life.conn.closes := by
  rw [closesAt, h]
  rfl

theorem once_iff (srv : TcpServer) :
    (∀ c ∈ srv.conns, c.life.conn.closes ≤ 1) ↔ ∀ j, srv.closesAt j ≤ 1 := by
  constructor
  · intro h j
    cases hget : srv.conns[j]? with
    | none =>
        rw [closesAt, hget]
        exact Nat.zero_le 1
    | some c =>
        rw [closesAt_of_getElem? hget]
        exact h c (List.mem_of_getElem? hget)
  · intro h c hmem
    obtain ⟨j, hget⟩ := List.mem_iff_getElem?.mp hmem
    rw [← closesAt_of_getElem? hget]
    exact h j

theorem closesAt_setLife {srv : TcpServer} {i : Nat} {c d : Accepted}
    (hget : srv.conns[i]? = some d) (life : Life) (j : Nat) :
    (srv.setLife i c life).closesAt j = if j = i then life.conn.closes else srv.closesAt j := by
  by_cases hj : j = i
  · subst hj
    rw [closesAt_of_getElem? (getElem?_setLife_self hget life), if_pos rfl]
  · rw [closesAt, getElem?_setLife_ne hj, if_neg hj]
    rfl

/-! ## What an act adds -/

/-- A removal closes nothing. -/
theorem closesAt_removeInLoop (srv : TcpServer) (i j : Nat) :
    (srv.removeInLoop i).closesAt j = srv.closesAt j := by
  unfold removeInLoop
  split
  · rfl
  · rename_i c hget
    show (srv.setLife i c (c.life.act .connectDestroyed)).closesAt j = _
    rw [closesAt_setLife hget]
    split
    · rename_i hj
      rw [hj, closesAt_of_getElem? hget]
      rfl
    · rfl

theorem closesAt_removeConnection (srv : TcpServer) (i j : Nat) (remote : Bool) :
    (srv.removeConnection i remote).closesAt j = srv.closesAt j := by
  unfold removeConnection
  split
  · rfl
  · exact closesAt_removeInLoop srv i j

/-- An act, and the callback when the act has closed the connection. -/
theorem actOn_eq {srv : TcpServer} {i : Nat} {c : Accepted} (hget : srv.conns[i]? = some c)
    (a : Act) :
    actOn i srv a
      = if c.life.conn.closes < (c.life.act a).conn.closes then
          (srv.setLife i c (c.life.act a)).removeConnection i c.remote
        else srv.setLife i c (c.life.act a) := by
  unfold actOn
  simp only [hget]
  rfl

theorem actOn_of_none {srv : TcpServer} {i : Nat} (hget : srv.conns[i]? = none) (a : Act) :
    actOn i srv a = srv := by
  unfold actOn
  rw [hget]

/-- An act changes the closes of its own connection only. -/
theorem closesAt_actOn {srv : TcpServer} {i : Nat} {c : Accepted} (hget : srv.conns[i]? = some c)
    (a : Act) (j : Nat) :
    (actOn i srv a).closesAt j
      = if j = i then (c.life.act a).conn.closes else srv.closesAt j := by
  rw [actOn_eq hget]
  split
  · rw [closesAt_removeConnection, closesAt_setLife hget]
  · rw [closesAt_setLife hget]

theorem closesAt_le_actOn (srv : TcpServer) (i : Nat) (a : Act) (j : Nat) :
    srv.closesAt j ≤ (actOn i srv a).closesAt j := by
  cases hget : srv.conns[i]? with
  | none => rw [actOn_of_none hget]
  | some c =>
      rw [closesAt_actOn hget]
      split
      · rename_i hj
        subst hj
        rw [closesAt_of_getElem? hget]
        by_cases hcloses : c.life.Closes a
        · exact Nat.le_of_lt (Nat.lt_of_lt_of_eq (Nat.lt_succ_self _)
            ((Life.act_spec c.life a).closed hcloses).2.symm)
        · exact Nat.le_of_eq ((Life.act_spec c.life a).calm hcloses).symm
      · exact Nat.le_refl _

/-- A second close shows. -/
theorem two_le_closesAt {srv : TcpServer} {i : Nat} {a : Act} (h : ¬ ClosesOnce i srv a) :
    2 ≤ (actOn i srv a).closesAt i := by
  unfold ClosesOnce at h
  simp only [not_forall, not_not] at h
  obtain ⟨c, hget, hclosed, hcloses⟩ := h
  have hpos : 0 < c.life.conn.closes := hclosed
  have hnext : (c.life.act a).conn.closes = c.life.conn.closes + 1 :=
    ((Life.act_spec c.life a).closed hcloses).2
  rw [closesAt_actOn hget, if_pos rfl, hnext]
  omega

theorem removals_removeInLoop (srv : TcpServer) (i : Nat) :
    (srv.removeInLoop i).removals = srv.removals := by
  unfold removeInLoop
  split <;> rfl

/-- There is room in the count for one more connection. -/
theorem toNat_activeConnections_succ {srv : TcpServer}
    (hactive : srv.activeConnections.toNat = UnorderedMap.size srv.connections)
    (hroom : UnorderedMap.size srv.connections < srv.maxConnections.toNat) :
    (srv.activeConnections + 1).toNat = UnorderedMap.size srv.connections + 1 := by
  have hmax := srv.maxConnections.toNat_lt
  have hone : (1 : UInt64).toNat = 1 := rfl
  rw [UInt64.toNat_add, hactive, hone]
  exact Nat.mod_eq_of_lt (by omega)

/-! ## The invariant -/

/-- The table holds exactly the connections whose removal has not run: the open ones, and the closed
ones among `pend`. -/
structure Inv (srv : TcpServer) (pend : List Nat) : Prop where
  once : ∀ j, srv.closesAt j ≤ 1
  active : srv.activeConnections.toNat = UnorderedMap.size srv.connections
  bounded : UnorderedMap.size srv.connections ≤ srv.maxConnections.toNat
  registered : ∀ id j, srv.connections.lookup id = some j →
    ∃ c, srv.conns[j]? = some c ∧ c.id = id ∧ (¬ c.life.Closed ∨ j ∈ pend)
  present : ∀ j c, srv.conns[j]? = some c → (¬ c.life.Closed ∨ j ∈ pend) →
    srv.connections.lookup c.id = some j
  queued : ∀ j ∈ pend, ∃ c, srv.conns[j]? = some c ∧ c.life.Closed
  nodup : pend.Nodup

/-- The invariant between operations: what is pending waits on the server's loop. -/
def Consistent (srv : TcpServer) : Prop := srv.Inv srv.removals

theorem Inv.counted {srv : TcpServer} {pend : List Nat} (h : srv.Inv pend) : srv.Counted :=
  ⟨(once_iff srv).mpr h.once, h.active⟩

/-- What waits on the loop is not in the invariant. -/
theorem Inv.setRemovals {srv : TcpServer} {pend : List Nat} (h : srv.Inv pend) (removals : List Nat) :
    { srv with removals }.Inv pend :=
  ⟨h.once, h.active, h.bounded, h.registered, h.present, h.queued, h.nodup⟩

theorem Inv.notMem_of_open {srv : TcpServer} {pend : List Nat} (h : srv.Inv pend) {i : Nat}
    {c : Accepted} (hget : srv.conns[i]? = some c) (hopen : ¬ c.life.Closed) : i ∉ pend := by
  intro hi
  obtain ⟨d, hd, hdclosed⟩ := h.queued i hi
  rw [Option.some.inj (hd.symm.trans hget)] at hdclosed
  exact hopen hdclosed

theorem new_consistent (maxConnections : UInt64) : Consistent { maxConnections } where
  once j := Nat.zero_le 1
  active := rfl
  bounded := Nat.zero_le _
  registered id j h := by
    rw [show ({ maxConnections } : TcpServer).connections.lookup id = none from rfl] at h
    exact absurd h (by simp)
  present j c h := by
    rw [show ({ maxConnections } : TcpServer).conns[j]? = none from rfl] at h
    exact absurd h (by simp)
  queued j h := absurd h List.not_mem_nil
  nodup := List.nodup_nil

/-! ## Removal -/

theorem removeInLoop_of_get {srv : TcpServer} {i : Nat} {c : Accepted} (hget : srv.conns[i]? = some c) :
    srv.removeInLoop i
      = { srv with
          connections := srv.connections.erase c.id
          activeConnections := srv.activeConnections - 1
          conns := srv.conns.set i { c with life := c.life.act .connectDestroyed } } := by
  unfold removeInLoop
  simp only [hget]

theorem getElem?_removeInLoop_ne {srv : TcpServer} {i j : Nat} (hj : j ≠ i) :
    (srv.removeInLoop i).conns[j]? = srv.conns[j]? := by
  unfold removeInLoop
  split
  · rfl
  · exact List.getElem?_set_ne (Ne.symm hj)

theorem getElem?_removeInLoop_self {srv : TcpServer} {i : Nat} {c : Accepted}
    (hget : srv.conns[i]? = some c) :
    (srv.removeInLoop i).conns[i]? = some { c with life := c.life.act .connectDestroyed } := by
  rw [removeInLoop_of_get hget]
  exact getElem?_setLife_self hget _

theorem lookup_removeInLoop {srv : TcpServer} {i : Nat} {c : Accepted} (hget : srv.conns[i]? = some c)
    (id : UInt64) : (srv.removeInLoop i).connections.lookup id
      = if id = c.id then none else srv.connections.lookup id := by
  rw [removeInLoop_of_get hget]
  exact UnorderedMap.lookup_erase _ _ _

/-- **A removal** takes its connection out of the table and out of the count. -/
theorem removeInLoop_inv {srv : TcpServer} {pend : List Nat} (h : srv.Inv pend) {i : Nat}
    (hi : i ∈ pend) : (srv.removeInLoop i).Inv (pend.erase i) := by
  obtain ⟨c, hget, hclosed⟩ := h.queued i hi
  have hlookup : srv.connections.lookup c.id = some i := h.present i c hget (.inr hi)
  have hmem : c.id ∈ srv.connections := UnorderedMap.mem_iff_lookup.mpr ⟨i, hlookup⟩
  have hsize := UnorderedMap.size_erase hmem
  have hgone : i ∉ pend.erase i := h.nodup.not_mem_erase
  refine ⟨?_, ?_, ?_, ?_, ?_, ?_, h.nodup.erase i⟩
  · intro j
    rw [closesAt_removeInLoop]
    exact h.once j
  · have hone : (1 : UInt64) ≤ srv.activeConnections := by
      rw [UInt64.le_iff_toNat_le, h.active, ← hsize]
      exact Nat.le_add_left 1 _
    rw [removeInLoop_of_get hget]
    show (srv.activeConnections - 1).toNat = UnorderedMap.size (srv.connections.erase c.id)
    rw [UInt64.toNat_sub_of_le _ _ hone, h.active, ← hsize]
    rfl
  · rw [removeInLoop_of_get hget]
    show UnorderedMap.size (srv.connections.erase c.id) ≤ srv.maxConnections.toNat
    have hbound := h.bounded
    omega
  · intro id j hj
    rw [lookup_removeInLoop hget] at hj
    split at hj
    · exact absurd hj (by simp)
    · rename_i hid
      obtain ⟨d, hd, hdid, hpend⟩ := h.registered id j hj
      have hne : j ≠ i := by
        intro hji
        subst hji
        exact hid (hdid.symm.trans (congrArg Accepted.id (Option.some.inj (hd.symm.trans hget))))
      refine ⟨d, (getElem?_removeInLoop_ne hne).trans hd, hdid, ?_⟩
      exact hpend.imp_right fun hp => (List.mem_erase_of_ne hne).mpr hp
  · intro j d hd hpend
    by_cases hji : j = i
    · -- the connection that was removed is closed and no longer pending
      subst hji
      have hd' : d = { c with life := c.life.act .connectDestroyed } :=
        Option.some.inj (hd.symm.trans (getElem?_removeInLoop_self hget))
      have hdclosed : d.life.Closed := by
        rw [hd']
        exact hclosed
      exact hpend.elim (fun hp => absurd hdclosed hp) fun hp => absurd hp hgone
    · rw [getElem?_removeInLoop_ne hji] at hd
      have hold := h.present j d hd (hpend.imp_right List.mem_of_mem_erase)
      have hid : d.id ≠ c.id := by
        intro hid
        rw [hid, hlookup] at hold
        exact hji (Option.some.inj hold).symm
      rw [lookup_removeInLoop hget, if_neg hid]
      exact hold
  · intro j hj
    obtain ⟨d, hd, hdclosed⟩ := h.queued j (List.mem_of_mem_erase hj)
    by_cases hji : j = i
    · subst hji
      exact absurd hj hgone
    · exact ⟨d, (getElem?_removeInLoop_ne hji).trans hd, hdclosed⟩

/-! ## Acts on one connection -/

/-- **An act that does not close** changes nothing that is counted. -/
theorem setLife_inv {srv : TcpServer} {pend : List Nat} (h : srv.Inv pend) {i : Nat} {c : Accepted}
    (hget : srv.conns[i]? = some c) {life : Life}
    (hlife : life.conn.closes = c.life.conn.closes) : (srv.setLife i c life).Inv pend := by
  have hself := getElem?_setLife_self (c := c) hget life
  have hother : ∀ j, j ≠ i → (srv.setLife i c life).conns[j]? = srv.conns[j]? :=
    fun j hj => getElem?_setLife_ne hj srv c life
  have hclosed : life.Closed ↔ c.life.Closed := by
    show 0 < life.conn.closes ↔ 0 < c.life.conn.closes
    rw [hlife]
  refine ⟨?_, h.active, h.bounded, ?_, ?_, ?_, h.nodup⟩
  · intro j
    rw [closesAt_setLife hget]
    split
    · rw [hlife, ← closesAt_of_getElem? hget]
      exact h.once i
    · exact h.once j
  · intro id j hj
    obtain ⟨d, hd, hdid, hpend⟩ := h.registered id j hj
    by_cases hji : j = i
    · subst hji
      have hdc : d = c := Option.some.inj (hd.symm.trans hget)
      rw [hdc] at hdid hpend
      exact ⟨_, hself, hdid, hpend.imp_left (mt hclosed.mp)⟩
    · exact ⟨d, (hother j hji).trans hd, hdid, hpend⟩
  · intro j d hd hpend
    by_cases hji : j = i
    · subst hji
      have hdc : d = { c with life } := Option.some.inj (hd.symm.trans hself)
      rw [hdc] at hpend ⊢
      exact h.present j c hget (hpend.imp_left (mt hclosed.mpr))
    · exact h.present j d ((hother j hji).symm.trans hd) hpend
  · intro j hj
    obtain ⟨d, hd, hdclosed⟩ := h.queued j hj
    by_cases hji : j = i
    · subst hji
      have hdc : d = c := Option.some.inj (hd.symm.trans hget)
      rw [hdc] at hdclosed
      exact ⟨_, hself, hclosed.mpr hdclosed⟩
    · exact ⟨d, (hother j hji).trans hd, hdclosed⟩

/-- **The first close** makes the connection one whose removal is pending. -/
theorem setLife_inv_of_closes {srv : TcpServer} {pend : List Nat} (h : srv.Inv pend) {i : Nat}
    {c : Accepted} (hget : srv.conns[i]? = some c) (hopen : ¬ c.life.Closed) {life : Life}
    (hlife : life.conn.closes = 1) : (srv.setLife i c life).Inv (pend ++ [i]) := by
  have hself := getElem?_setLife_self (c := c) hget life
  have hother : ∀ j, j ≠ i → (srv.setLife i c life).conns[j]? = srv.conns[j]? :=
    fun j hj => getElem?_setLife_ne hj srv c life
  have hclosed : life.Closed := by
    show 0 < life.conn.closes
    rw [hlife]
    exact Nat.one_pos
  have hnotin := h.notMem_of_open hget hopen
  have hkeep : ∀ {j}, j ≠ i → (j ∈ pend ++ [i] ↔ j ∈ pend) := by
    intro j hji
    simp only [List.mem_append, List.mem_singleton, hji, or_false]
  refine ⟨?_, h.active, h.bounded, ?_, ?_, ?_, ?_⟩
  · intro j
    rw [closesAt_setLife hget]
    split
    · exact Nat.le_of_eq hlife
    · exact h.once j
  · intro id j hj
    obtain ⟨d, hd, hdid, hpend⟩ := h.registered id j hj
    by_cases hji : j = i
    · subst hji
      rw [Option.some.inj (hd.symm.trans hget)] at hdid
      exact ⟨_, hself, hdid, .inr (List.mem_append_right _ (List.mem_singleton_self j))⟩
    · exact ⟨d, (hother j hji).trans hd, hdid, hpend.imp_right (hkeep hji).mpr⟩
  · intro j d hd hpend
    by_cases hji : j = i
    · subst hji
      have hdc : d = { c with life } := Option.some.inj (hd.symm.trans hself)
      rw [hdc]
      exact h.present j c hget (.inl hopen)
    · exact h.present j d ((hother j hji).symm.trans hd) (hpend.imp_right (hkeep hji).mp)
  · intro j hj
    by_cases hji : j = i
    · subst hji
      exact ⟨_, hself, hclosed⟩
    · obtain ⟨d, hd, hdclosed⟩ := h.queued j ((hkeep hji).mp hj)
      exact ⟨d, (hother j hji).trans hd, hdclosed⟩
  · exact List.nodup_append.mpr ⟨h.nodup, List.nodup_singleton i, by
      intro j hj k hk hjk
      rw [List.mem_singleton.mp hk] at hjk
      exact hnotin (hjk ▸ hj)⟩

/-- An act that does not close a second time keeps the invariant. -/
theorem actOn_consistent {srv : TcpServer} (h : srv.Consistent) {i : Nat} {a : Act}
    (hok : ClosesOnce i srv a) : (actOn i srv a).Consistent := by
  cases hget : srv.conns[i]? with
  | none =>
      rw [actOn_of_none hget]
      exact h
  | some c =>
      rw [actOn_eq hget]
      by_cases hcloses : c.life.Closes a
      · have hopen : ¬ c.life.Closed := fun hclosed => hok c hget hclosed hcloses
        have hzero : c.life.conn.closes = 0 := Nat.eq_zero_of_not_pos hopen
        have hone : (c.life.act a).conn.closes = 1 := by
          have hnext : (c.life.act a).conn.closes = c.life.conn.closes + 1 :=
            ((Life.act_spec c.life a).closed hcloses).2
          rw [hnext, hzero]
        have hinv := setLife_inv_of_closes h hget hopen hone
        rw [if_pos (by omega), removeConnection]
        split
        · -- the removal is queued on the server's loop
          exact hinv.setRemovals _
        · -- the removal runs at once
          have hremoved := removeInLoop_inv hinv (List.mem_append_right _ (List.mem_singleton_self i))
          have hnotin : i ∉ srv.removals := h.notMem_of_open hget hopen
          rw [List.erase_append_right _ hnotin, List.erase_cons_head, List.append_nil] at hremoved
          unfold Consistent
          rw [removals_removeInLoop]
          exact hremoved
      · have hsame : (c.life.act a).conn.closes = c.life.conn.closes :=
          (Life.act_spec c.life a).calm hcloses
        rw [if_neg (by omega)]
        exact setLife_inv h hget hsame

/-! ## A new connection -/

section

variable {srv : TcpServer} {remote : Bool}

theorem newConnection_of_full (hfull : srv.maxConnections.toNat ≤ UnorderedMap.size srv.connections) :
    srv.newConnection remote = srv := by
  rw [newConnection, if_pos hfull]

theorem newConnection_of_room (hroom : UnorderedMap.size srv.connections < srv.maxConnections.toNat) :
    srv.newConnection remote
      = { srv with
          nextId := srv.nextId + 1
          connections := UnorderedMap.assign srv.nextId srv.conns.length srv.connections
          connectionsTotal := srv.connectionsTotal + 1
          activeConnections := srv.activeConnections + 1
          conns := srv.conns ++ [⟨srv.nextId, remote, Life.act {} .connectEstablished⟩] } := by
  rw [newConnection, if_neg (not_le.mpr hroom)]

/-- The connections that were there stay where they are. -/
theorem getElem?_newConnection_of_old {j : Nat} {d : Accepted} (hd : srv.conns[j]? = some d) :
    (srv.newConnection remote).conns[j]? = some d := by
  unfold newConnection
  split
  · exact hd
  · have hlt : j < srv.conns.length := (List.getElem?_eq_some_iff.mp hd).1
    exact (List.getElem?_append_left hlt).trans hd

theorem getElem?_newConnection_last
    (hroom : UnorderedMap.size srv.connections < srv.maxConnections.toNat) :
    (srv.newConnection remote).conns[srv.conns.length]?
      = some ⟨srv.nextId, remote, Life.act {} .connectEstablished⟩ := by
  rw [newConnection_of_room hroom]
  exact List.getElem?_concat_length

/-- A connection was there, or it is the new one. -/
theorem getElem?_newConnection_cases
    (hroom : UnorderedMap.size srv.connections < srv.maxConnections.toNat) {j : Nat} {d : Accepted}
    (hd : (srv.newConnection remote).conns[j]? = some d) :
    srv.conns[j]? = some d
      ∨ j = srv.conns.length ∧ d = ⟨srv.nextId, remote, Life.act {} .connectEstablished⟩ := by
  by_cases hj : j < srv.conns.length
  · rw [newConnection_of_room hroom] at hd
    exact .inl ((List.getElem?_append_left hj).symm.trans hd)
  · have hlen : (srv.newConnection remote).conns.length = srv.conns.length + 1 := by
      rw [newConnection_of_room hroom]
      exact List.length_append
    have hjlt := (List.getElem?_eq_some_iff.mp hd).1
    obtain rfl : j = srv.conns.length := by omega
    exact .inr ⟨rfl, Option.some.inj (hd.symm.trans (getElem?_newConnection_last hroom))⟩

theorem lookup_newConnection
    (hroom : UnorderedMap.size srv.connections < srv.maxConnections.toNat) (id : UInt64) :
    (srv.newConnection remote).connections.lookup id
      = if id = srv.nextId then some srv.conns.length else srv.connections.lookup id := by
  rw [newConnection_of_room hroom]
  exact UnorderedMap.lookup_assign _ _ _ _

/-- An accepted connection whose id is free. -/
theorem newConnection_consistent (h : srv.Consistent) (hok : srv.FreshId) :
    (srv.newConnection remote).Consistent := by
  by_cases hfull : srv.maxConnections.toNat ≤ UnorderedMap.size srv.connections
  · rw [newConnection_of_full hfull]
    exact h
  · have hroom := not_le.mp hfull
    have hfresh : srv.nextId ∉ srv.connections := hok hroom
    have hopen : ¬ (Life.act {} .connectEstablished).Closed := by decide +kernel
    have hsize : UnorderedMap.size (srv.newConnection remote).connections
        = UnorderedMap.size srv.connections + 1 := by
      rw [newConnection_of_room hroom]
      exact UnorderedMap.size_assign_of_notMem hfresh _
    have hremovals : (srv.newConnection remote).removals = srv.removals := by
      rw [newConnection_of_room hroom]
    unfold Consistent
    rw [hremovals]
    refine ⟨?_, ?_, ?_, ?_, ?_, ?_, h.nodup⟩
    · refine (once_iff _).mp fun d hmem => ?_
      obtain ⟨j, hd⟩ := List.mem_iff_getElem?.mp hmem
      rcases getElem?_newConnection_cases hroom hd with hold | ⟨-, rfl⟩
      · rw [← closesAt_of_getElem? hold]
        exact h.once j
      · exact Nat.le_succ_of_le (Nat.le_of_not_lt hopen)
    · rw [hsize, newConnection_of_room hroom]
      exact toNat_activeConnections_succ h.active hroom
    · rw [hsize, newConnection_of_room hroom]
      exact hroom
    · intro id j hj
      rw [lookup_newConnection hroom] at hj
      split at hj
      · rename_i hid
        obtain rfl := Option.some.inj hj
        exact ⟨_, getElem?_newConnection_last hroom, hid.symm, .inl hopen⟩
      · obtain ⟨d, hd, hdid, hpend⟩ := h.registered id j hj
        exact ⟨d, getElem?_newConnection_of_old hd, hdid, hpend⟩
    · intro j d hd hpend
      rcases getElem?_newConnection_cases hroom hd with hold | ⟨rfl, rfl⟩
      · have hreg := h.present j d hold hpend
        have hne : d.id ≠ srv.nextId := by
          intro hid
          exact hfresh (UnorderedMap.mem_iff_lookup.mpr ⟨j, hid ▸ hreg⟩)
        rw [lookup_newConnection hroom, if_neg hne]
        exact hreg
      · rw [lookup_newConnection hroom, if_pos rfl]
    · intro j hj
      obtain ⟨d, hd, hdclosed⟩ := h.queued j hj
      exact ⟨d, getElem?_newConnection_of_old hd, hdclosed⟩

/-- The id of a new connection is free if the count survives. -/
theorem freshId_of_counted (h : srv.Consistent) (hcounted : (srv.newConnection remote).Counted) :
    srv.FreshId := by
  intro hroom hmem
  -- the table stays as large as it was, the metric grows
  have hactive := hcounted.active
  rw [newConnection_of_room hroom] at hactive
  have hsame : UnorderedMap.size
      (UnorderedMap.assign srv.nextId srv.conns.length srv.connections)
        = UnorderedMap.size srv.connections := UnorderedMap.size_assign_of_mem hmem _
  have hgrows := toNat_activeConnections_succ h.active hroom
  rw [hgrows, hsame] at hactive
  omega

end

/-! ## Queued removals -/

theorem runRemoval_consistent {srv : TcpServer} (h : srv.Consistent) : srv.runRemoval.Consistent := by
  unfold runRemoval
  split
  · exact h
  · rename_i i rest hremovals
    unfold Consistent at h ⊢
    rw [hremovals] at h
    have hstart : { srv with removals := rest }.Inv (i :: rest) := h.setRemovals rest
    have hremoved := removeInLoop_inv hstart List.mem_cons_self
    rw [List.erase_cons_head] at hremoved
    rw [removals_removeInLoop]
    exact hremoved

end TcpServer

end LightNet.Net
