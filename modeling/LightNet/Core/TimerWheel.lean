/-
# LightNet.Core.TimerWheel — the timers of `core/timer_wheel.cpp`.

A timer is a node of the heap `timers_` and an id in `active_`.  `cancel` only takes the id away and
leaves the node, `tick` drops such nodes when they come up.  The callback of a node runs while the
node is in neither of the two: it has been popped, its id is still active, and the callback may add
and cancel timers, its own too, before the node is pushed back or its id erased.

A run is therefore a list of the small steps below, with the calls that callbacks make between the
step that starts a callback and the one that returns from it.  Which of several nodes with the least
expiry is on top is left open.
-/
import LightNet.Foundation.Run
import Mathlib.Data.Finset.Erase
import Mathlib.Data.Finset.Insert
import Mathlib.Tactic.Ring

namespace LightNet.Core

open LightNet.Foundation

/-- `TimerWheel::TimerNode`, without the callback. -/
structure TimerNode where
  id : Nat
  expireMs : Nat
  intervalMs : Nat
  repeats : Bool
  deriving DecidableEq

/-- Where the loop thread is in `tick`. -/
inductive TickPhase where
  | idle
  /-- At the head of the loop of `tick(now)`. -/
  | ticking (now : Nat)
  /-- In the callback of `node`, called by `tick(now)`. -/
  | calling (now : Nat) (node : TimerNode)
  deriving DecidableEq

namespace TickPhase

/-- The argument of the `tick` that is running. -/
def now? : TickPhase → Option Nat
  | idle => none
  | ticking now | calling now _ => some now

/-- The node whose callback is running. -/
def inFlight : TickPhase → List TimerNode
  | calling _ node => [node]
  | _ => []

/-- User code runs. -/
def runsUserCode : TickPhase → Bool
  | idle | calling _ _ => true
  | ticking _ => false

end TickPhase

/-! ## The wheel -/

/-- `lightnet::TimerWheel`.  `clock` is the last reading of the clock and `added` the number of timers
so far; no step reads them. -/
structure TimerWheel where
  timers : List TimerNode
  active : Finset Nat
  nextId : Nat
  lastTickMs : Nat
  phase : TickPhase
  clock : Nat
  added : Nat

/-- One step of the wheel. -/
inductive TimerStep where
  /-- `add_timer(delay, cb, repeats)`, which reads the clock. -/
  | addTimer (clock delay : Nat) (repeats : Bool)
  | cancel (id : Nat)
  | tick (now : Nat)
  /-- The node on top is popped, its id is active, and its callback is called. -/
  | run (now : Nat) (node : TimerNode)
  /-- The node on top is popped and its id is not active. -/
  | skip (now : Nat) (node : TimerNode)
  /-- The callback returns. -/
  | returns
  | endTick (now : Nat)
  deriving DecidableEq

namespace TimerWheel

/-- `TimerWheel(loop)`; the constructor reads the clock. -/
def init (clock : Nat) : TimerWheel where
  timers := []
  active := ∅
  nextId := 1
  lastTickMs := clock
  phase := .idle
  clock := clock
  added := 0

/-- The node that `add_timer` pushes. -/
def newNode (w : TimerWheel) (clock delay : Nat) (repeats : Bool) : TimerNode where
  id := w.nextId
  expireMs := (clock + delay) % 2 ^ 64
  intervalMs := if repeats then delay else 0
  repeats := repeats

/-- `add_timer(delay_ms, cb, repeat)`, at this reading of the clock. -/
def addTimer (w : TimerWheel) (clock delay : Nat) (repeats : Bool) : TimerWheel :=
  { w with
    timers := w.newNode clock delay repeats :: w.timers
    active := insert w.nextId w.active
    nextId := (w.nextId + 1) % 2 ^ 64
    clock := clock
    added := w.added + 1 }

/-- `cancel(id)`: the node stays in the heap. -/
def cancel (w : TimerWheel) (id : Nat) : TimerWheel := { w with active := w.active.erase id }

/-- The end of one turn of the loop of `tick`, behind the callback. -/
def afterCallback (w : TimerWheel) (now : Nat) (node : TimerNode) : TimerWheel :=
  if node.repeats ∧ node.id ∈ w.active then
    { w with
      timers := { node with expireMs := (now + node.intervalMs) % 2 ^ 64 } :: w.timers
      phase := .ticking now }
  else { w with active := w.active.erase node.id, phase := .ticking now }

/-- What the step does. -/
def step (w : TimerWheel) : TimerStep → TimerWheel
  | .addTimer clock delay repeats => w.addTimer clock delay repeats
  | .cancel id => w.cancel id
  | .tick now => { w with lastTickMs := now, phase := .ticking now, clock := now }
  | .run now node => { w with timers := w.timers.erase node, phase := .calling now node }
  | .skip _ node => { w with timers := w.timers.erase node }
  | .returns =>
      match w.phase with
      | .calling now node => w.afterCallback now node
      | _ => w
  | .endTick _ => { w with phase := .idle }

/-! ## What may happen -/

/-- `node` can be `timers_.top()`, and it is due. -/
def TopDue (w : TimerWheel) (now : Nat) (node : TimerNode) : Prop :=
  node ∈ w.timers ∧ (∀ other ∈ w.timers, node.expireMs ≤ other.expireMs) ∧ node.expireMs ≤ now

/-- The step can be taken now. -/
def Enabled (w : TimerWheel) : TimerStep → Prop
  | .addTimer _ _ _ => w.phase.runsUserCode = true
  | .cancel _ => w.phase.runsUserCode = true
  | .tick _ => w.phase = .idle
  | .run now node => w.phase = .ticking now ∧ w.TopDue now node ∧ node.id ∈ w.active
  | .skip now node => w.phase = .ticking now ∧ w.TopDue now node ∧ node.id ∉ w.active
  | .returns => ∃ now node, w.phase = .calling now node
  | .endTick now => w.phase = .ticking now ∧ ∀ node ∈ w.timers, now < node.expireMs

/-- The clock does not go back, `now + delay` and `now + interval` do not overflow, and there are
fewer than `2 ^ 64` timers. -/
def InRange (w : TimerWheel) : TimerStep → Prop
  | .addTimer clock delay _ => w.clock ≤ clock ∧ clock + delay < 2 ^ 64 ∧ w.added + 1 < 2 ^ 64
  | .tick now => w.clock ≤ now
  | .returns => ∀ now node, w.phase = .calling now node → now + node.intervalMs < 2 ^ 64
  | _ => True

/-- What a run may do next. -/
def Legal (w : TimerWheel) (s : TimerStep) : Prop := w.Enabled s ∧ w.InRange s

instance (w : TimerWheel) (now : Nat) (node : TimerNode) : Decidable (w.TopDue now node) :=
  inferInstanceAs (Decidable (_ ∧ _ ∧ _))

instance (w : TimerWheel) : (s : TimerStep) → Decidable (w.Enabled s)
  | .addTimer _ _ _ | .cancel _ => inferInstanceAs (Decidable (_ = _))
  | .tick _ => inferInstanceAs (Decidable (_ = _))
  | .run _ _ | .skip _ _ | .endTick _ => inferInstanceAs (Decidable (_ ∧ _))
  | .returns =>
      match h : w.phase with
      | .calling now node => isTrue ⟨now, node, h⟩
      | .idle | .ticking _ => isFalse (by rintro ⟨now, node, heq⟩; rw [h] at heq; cases heq)

instance (w : TimerWheel) : (s : TimerStep) → Decidable (w.InRange s)
  | .addTimer _ _ _ => inferInstanceAs (Decidable (_ ∧ _ ∧ _))
  | .tick _ => inferInstanceAs (Decidable (_ ≤ _))
  | .returns =>
      match h : w.phase with
      | .calling now node =>
          decidable_of_iff (now + node.intervalMs < 2 ^ 64)
            ⟨fun hlt _ _ heq => by rw [h] at heq; cases heq; exact hlt, fun hall => hall _ _ h⟩
      | .idle | .ticking _ => isTrue (fun now node heq => by rw [h] at heq; cases heq)
  | .cancel _ | .run _ _ | .skip _ _ | .endTick _ => isTrue trivial

instance (w : TimerWheel) (s : TimerStep) : Decidable (w.Legal s) :=
  inferInstanceAs (Decidable (_ ∧ _))

/-! ## The invariant -/

/-- All nodes: the one in flight and those of the heap. -/
def nodes (w : TimerWheel) : List TimerNode := w.phase.inFlight ++ w.timers

/-- `id` has been returned by `add_timer`. -/
def Allocated (w : TimerWheel) (id : Nat) : Prop := 0 < id ∧ id ≤ w.added

/-- What holds of every wheel that a run leads to. -/
structure Inv (w : TimerWheel) : Prop where
  nextId_eq : w.nextId = (w.added + 1) % 2 ^ 64
  /-- Each timer has at most one node. -/
  ids_nodup : (w.nodes.map TimerNode.id).Nodup
  nodes_allocated : ∀ node ∈ w.nodes, w.Allocated node.id
  active_allocated : ∀ id ∈ w.active, w.Allocated id
  now_le : ∀ now, w.phase.now? = some now → now ≤ w.clock
  /-- A callback that runs is due. -/
  inFlight_due : ∀ now node, w.phase = .calling now node → node.expireMs ≤ now

/-- The part of the invariant that does not depend on the clock. -/
structure Numbered (w : TimerWheel) : Prop where
  nextId_eq : w.nextId = (w.added + 1) % 2 ^ 64
  ids_nodup : (w.nodes.map TimerNode.id).Nodup
  nodes_allocated : ∀ node ∈ w.nodes, w.Allocated node.id
  active_allocated : ∀ id ∈ w.active, w.Allocated id

theorem Inv.numbered {w : TimerWheel} (h : w.Inv) : w.Numbered :=
  ⟨h.nextId_eq, h.ids_nodup, h.nodes_allocated, h.active_allocated⟩

/-- The id that `add_timer` returns next has not been returned before. -/
theorem Numbered.nextId_fresh {w : TimerWheel} (h : w.Numbered) (hadded : w.added + 1 < 2 ^ 64) :
    w.nextId = w.added + 1 ∧ ¬w.Allocated w.nextId := by
  have hid : w.nextId = w.added + 1 := by rw [h.nextId_eq, Nat.mod_eq_of_lt hadded]
  refine ⟨hid, ?_⟩
  rw [hid]
  exact fun halloc => absurd halloc.2 (by omega)

theorem init_inv (clock : Nat) : (init clock).Inv where
  nextId_eq := rfl
  ids_nodup := List.nodup_nil
  nodes_allocated _ h := absurd h List.not_mem_nil
  active_allocated _ h := absurd h (Finset.notMem_empty _)
  now_le _ h := nomatch h
  inFlight_due _ _ h := nomatch h

theorem mem_nodes {w : TimerWheel} {node : TimerNode} :
    node ∈ w.nodes ↔ (∃ now, w.phase = .calling now node) ∨ node ∈ w.timers := by
  rw [nodes, List.mem_append]
  refine or_congr ?_ Iff.rfl
  cases w.phase with
  | idle => simp [TickPhase.inFlight]
  | ticking now => simp [TickPhase.inFlight]
  | calling now other => simp [TickPhase.inFlight, eq_comm]

namespace Inv

variable {w : TimerWheel} (h : w.Inv)
include h

theorem nextId_fresh (hadded : w.added + 1 < 2 ^ 64) :
    w.nextId = w.added + 1 ∧ ¬w.Allocated w.nextId := h.numbered.nextId_fresh hadded

/-- A timer has one node. -/
theorem node_unique {node other : TimerNode} (hnode : node ∈ w.nodes) (hother : other ∈ w.nodes)
    (hid : node.id = other.id) : node = other :=
  List.inj_on_of_nodup_map h.ids_nodup hnode hother hid

theorem timers_nodup : w.timers.Nodup :=
  (List.nodup_append.mp (List.Nodup.of_map _ h.ids_nodup)).2.1

end Inv

/-! ## Every step keeps it -/

theorem Allocated.addTimer {w : TimerWheel} {id : Nat} (h : w.Allocated id) (clock delay : Nat)
    (repeats : Bool) : (w.addTimer clock delay repeats).Allocated id :=
  ⟨h.1, Nat.le_succ_of_le h.2⟩

theorem addTimer_numbered {w : TimerWheel} (h : w.Numbered) {clock delay : Nat} {repeats : Bool}
    (hadded : w.added + 1 < 2 ^ 64) : (w.addTimer clock delay repeats).Numbered := by
  obtain ⟨hid, hfresh⟩ := h.nextId_fresh hadded
  have hself : (w.addTimer clock delay repeats).Allocated w.nextId := by
    rw [hid]
    exact ⟨Nat.succ_pos _, le_refl _⟩
  have hperm : (w.addTimer clock delay repeats).nodes.Perm
      (w.newNode clock delay repeats :: w.nodes) := List.perm_middle
  refine ⟨?_, ?_, ?_, ?_⟩
  · show (w.nextId + 1) % 2 ^ 64 = (w.added + 1 + 1) % 2 ^ 64
    rw [hid]
  · rw [(hperm.map TimerNode.id).nodup_iff, List.map_cons, List.nodup_cons]
    refine ⟨?_, h.ids_nodup⟩
    intro hmem
    obtain ⟨node, hnode, heq⟩ := List.mem_map.mp hmem
    have heq : node.id = w.nextId := heq
    exact hfresh (heq ▸ h.nodes_allocated node hnode)
  · intro node hnode
    rcases List.mem_cons.mp (hperm.mem_iff.mp hnode) with rfl | hold
    · exact hself
    · exact (h.nodes_allocated node hold).addTimer clock delay repeats
  · intro id hmem
    rcases Finset.mem_insert.mp hmem with rfl | hold
    · exact hself
    · exact (h.active_allocated id hold).addTimer clock delay repeats

/-- A node is popped, and its callback runs or does not. -/
theorem pop_nodes {w : TimerWheel} {now : Nat} {node : TimerNode} (hphase : w.phase = .ticking now)
    (hmem : node ∈ w.timers) :
    (w.step (.run now node)).nodes.Perm w.nodes ∧ (w.step (.skip now node)).nodes.Sublist w.nodes := by
  have hold : w.nodes = w.timers := by rw [nodes, hphase]; rfl
  have hskip : (w.step (.skip now node)).nodes = w.timers.erase node := by
    show w.phase.inFlight ++ w.timers.erase node = _
    rw [hphase]
    rfl
  rw [hold, hskip]
  exact ⟨(List.perm_cons_erase hmem).symm, List.erase_sublist⟩

theorem afterCallback_numbered {w : TimerWheel} (h : w.Numbered) {now : Nat} {node : TimerNode}
    (hphase : w.phase = .calling now node) : (w.afterCallback now node).Numbered := by
  have hold : w.nodes = node :: w.timers := by rw [nodes, hphase]; rfl
  have hnodup := h.ids_nodup
  have halloc := h.nodes_allocated
  rw [hold] at hnodup halloc
  unfold afterCallback
  split
  · -- pushed back: the same ids
    refine ⟨h.nextId_eq, hnodup, ?_, h.active_allocated⟩
    intro other hother
    rcases List.mem_cons.mp hother with rfl | hmem
    · exact halloc node List.mem_cons_self
    · exact halloc other (List.mem_cons_of_mem _ hmem)
  · refine ⟨h.nextId_eq, (List.nodup_cons.mp hnodup).2, ?_, ?_⟩
    · intro other hother
      exact halloc other (List.mem_cons_of_mem _ hother)
    · intro id hid
      exact h.active_allocated id (Finset.mem_of_mem_erase hid)

theorem afterCallback_phase (w : TimerWheel) (now : Nat) (node : TimerNode) :
    (w.afterCallback now node).phase = .ticking now ∧ (w.afterCallback now node).clock = w.clock := by
  unfold afterCallback
  split
  · exact ⟨rfl, rfl⟩
  · exact ⟨rfl, rfl⟩

/-- The ids stay in order whatever the clock says, as long as they do not run out. -/
theorem step_numbered {w : TimerWheel} {s : TimerStep} (h : w.Numbered) (hen : w.Enabled s)
    (hadded : ∀ clock delay repeats, s = .addTimer clock delay repeats → w.added + 1 < 2 ^ 64) :
    (w.step s).Numbered := by
  cases s with
  | addTimer clock delay repeats => exact addTimer_numbered h (hadded clock delay repeats rfl)
  | cancel id =>
      refine ⟨h.nextId_eq, h.ids_nodup, h.nodes_allocated, ?_⟩
      intro other hmem
      exact h.active_allocated other (Finset.mem_of_mem_erase hmem)
  | tick now =>
      have hidle : w.phase = .idle := hen
      have hnodes : (w.step (.tick now)).nodes = w.nodes := by
        rw [nodes, nodes, hidle]
        rfl
      refine ⟨h.nextId_eq, ?_, ?_, h.active_allocated⟩
      · rw [hnodes]
        exact h.ids_nodup
      · rw [hnodes]
        exact h.nodes_allocated
  | run now node =>
      obtain ⟨hphase, ⟨hmem, -, -⟩, -⟩ := hen
      have hperm := (pop_nodes hphase hmem).1
      refine ⟨h.nextId_eq, ?_, ?_, h.active_allocated⟩
      · exact (hperm.map TimerNode.id).nodup_iff.mpr h.ids_nodup
      · exact fun other hother => h.nodes_allocated other (hperm.mem_iff.mp hother)
  | skip now node =>
      obtain ⟨hphase, ⟨hmem, -, -⟩, -⟩ := hen
      have hsub := (pop_nodes hphase hmem).2
      refine ⟨h.nextId_eq, ?_, ?_, h.active_allocated⟩
      · exact h.ids_nodup.sublist (hsub.map TimerNode.id)
      · exact fun other hother => h.nodes_allocated other (hsub.subset hother)
  | returns =>
      obtain ⟨now, node, hphase⟩ := hen
      rw [step, hphase]
      exact afterCallback_numbered h hphase
  | endTick now =>
      have hphase : w.phase = .ticking now := hen.1
      have hnodes : (w.step (.endTick now)).nodes = w.nodes := by
        rw [nodes, nodes, hphase]
        rfl
      refine ⟨h.nextId_eq, ?_, ?_, h.active_allocated⟩
      · rw [hnodes]
        exact h.ids_nodup
      · rw [hnodes]
        exact h.nodes_allocated

theorem step_inv {w : TimerWheel} {s : TimerStep} (h : w.Inv) (hok : w.Legal s) : (w.step s).Inv := by
  obtain ⟨hen, hrange⟩ := hok
  have hnumbered : (w.step s).Numbered := by
    apply step_numbered h.numbered hen
    rintro clock delay repeats rfl
    exact hrange.2.2
  suffices hclock : (∀ now, (w.step s).phase.now? = some now → now ≤ (w.step s).clock)
      ∧ ∀ now node, (w.step s).phase = .calling now node → node.expireMs ≤ now from
    ⟨hnumbered.nextId_eq, hnumbered.ids_nodup, hnumbered.nodes_allocated,
      hnumbered.active_allocated, hclock.1, hclock.2⟩
  cases s with
  | addTimer clock delay repeats =>
      exact ⟨fun now hnow => le_trans (h.now_le now hnow) hrange.1, h.inFlight_due⟩
  | cancel id => exact ⟨h.now_le, h.inFlight_due⟩
  | tick now =>
      refine ⟨?_, nofun⟩
      rintro t ⟨⟩
      exact le_refl _
  | run now node =>
      obtain ⟨hphase, ⟨-, -, hdue⟩, -⟩ := hen
      refine ⟨fun t ht => h.now_le t (by rw [hphase]; exact ht), ?_⟩
      rintro t other ⟨⟩
      exact hdue
  | skip now node => exact ⟨h.now_le, h.inFlight_due⟩
  | returns =>
      obtain ⟨now, node, hphase⟩ := hen
      have hnext : w.step .returns = w.afterCallback now node := by rw [step, hphase]
      obtain ⟨hphase', hclock'⟩ := w.afterCallback_phase now node
      rw [hnext, hphase', hclock']
      exact ⟨fun t ht => h.now_le t (by rw [hphase]; exact ht), nofun⟩
  | endTick now => exact ⟨nofun, nofun⟩

theorem run_inv {clock : Nat} {trace : List TimerStep} (h : Admissible step Legal (init clock) trace) :
    (LightNet.Foundation.run step (init clock) trace).Inv :=
  run_invariant (fun _ _ => step_inv) (init_inv clock) h

end TimerWheel

end LightNet.Core
