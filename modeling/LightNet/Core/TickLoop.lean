/-
# LightNet.Core.TickLoop — when `tick` ends.

The loop of `tick(now)` pushes the nodes of repeating timers back into the heap that it is draining.
A turn of the loop takes one node that is due off the heap, and so the loop ends if what is pushed
back is never due.  It is due again, and the loop need not end, if the interval is zero or if
`now + interval` wraps around.

Callbacks add no timers here.  They may cancel any, their own too, which can only end the loop sooner.
-/
import LightNet.Core.TimerWheel
import Mathlib.Data.Finset.Basic
import Mathlib.Data.Finset.Max

namespace LightNet.Core

open LightNet.Foundation

/-- One turn of the loop of `tick`: the node on top is dropped, or its callback runs and cancels some
timers. -/
inductive TickTurn where
  | drop (node : TimerNode)
  | call (node : TimerNode) (cancels : List Nat)

namespace TickTurn

/-- The steps of the wheel in a turn. -/
def steps (now : Nat) : TickTurn → List TimerStep
  | drop node => [.skip now node]
  | call node cancels => .run now node :: (cancels.map TimerStep.cancel ++ [.returns])

/-- No timer is cancelled. -/
def Quiet : TickTurn → Prop
  | drop _ => True
  | call _ cancels => cancels = []

end TickTurn

namespace TimerWheel

/-- The wheel after one turn of the loop. -/
def turn (now : Nat) (w : TimerWheel) (t : TickTurn) : TimerWheel := run step w (t.steps now)

/-- The turn can be taken now. -/
def CanTurn (now : Nat) (w : TimerWheel) (t : TickTurn) : Prop :=
  Admissible step Enabled w (t.steps now)

/-- `tick(now)` ends after finitely many turns, whichever node is on top and whatever is cancelled. -/
def TickEnds (w : TimerWheel) (now : Nat) : Prop :=
  ∃ n, ∀ turns, Admissible (turn now) (CanTurn now) (w.step (.tick now)) turns → turns.length ≤ n

/-- The node is pushed back by `tick(now)`, which then finds it due again. -/
def ComesBack (w : TimerWheel) (now : Nat) (node : TimerNode) : Prop :=
  node ∈ w.timers ∧ node.expireMs ≤ now ∧ node.repeats = true ∧ node.id ∈ w.active
    ∧ (node.intervalMs = 0 ∨ 2 ^ 64 ≤ now + node.intervalMs)

/-! ## One turn -/

variable {w : TimerWheel} {now : Nat}

/-- The loop goes on as long as a node is due. -/
theorem endTick_or_turn (hphase : w.phase = .ticking now) :
    w.Enabled (.endTick now) ∨ ∃ node, w.TopDue now node := by
  by_cases hdue : ∃ node ∈ w.timers, node.expireMs ≤ now
  · obtain ⟨node, hnode, hle⟩ := hdue
    right
    have hne : w.timers.toFinset.Nonempty := ⟨node, List.mem_toFinset.mpr hnode⟩
    obtain ⟨top, htop, hmin⟩ := w.timers.toFinset.exists_min_image TimerNode.expireMs hne
    have hmin : ∀ other ∈ w.timers, top.expireMs ≤ other.expireMs :=
      fun other hother => hmin other (List.mem_toFinset.mpr hother)
    exact ⟨top, List.mem_toFinset.mp htop, hmin, (hmin node hnode).trans hle⟩
  · left
    refine ⟨hphase, fun node hnode => ?_⟩
    exact not_le.mp fun hle => hdue ⟨node, hnode, hle⟩

theorem run_cancels (cancels : List Nat) : ∀ w : TimerWheel, run step w (cancels.map TimerStep.cancel)
    = { w with active := w.active \ cancels.toFinset } := by
  induction cancels with
  | nil =>
      intro w
      rw [List.toFinset_nil, Finset.sdiff_empty]
      rfl
  | cons id cancels ih =>
      intro w
      rw [List.map_cons, run_cons, ih, List.toFinset_cons, Finset.sdiff_insert]
      show { w with active := w.active.erase id \ cancels.toFinset } = _
      rw [Finset.erase_sdiff_comm]

/-- What a turn does: a due node leaves the heap, and it comes back under a new expiry if it repeats
and has not been cancelled.  No id becomes active. -/
theorem turn_cases {t : TickTurn} (hphase : w.phase = .ticking now) (hok : CanTurn now w t) :
    (turn now w t).phase = .ticking now ∧ (turn now w t).active ⊆ w.active
      ∧ ∃ node ∈ w.timers, node.expireMs ≤ now
        ∧ ((turn now w t).timers = w.timers.erase node
          ∨ node.repeats = true ∧ node.id ∈ w.active
            ∧ (turn now w t).timers
              = { node with expireMs := (now + node.intervalMs) % 2 ^ 64 } :: w.timers.erase node) := by
  cases t with
  | drop node =>
      obtain ⟨⟨-, ⟨hmem, -, hdue⟩, -⟩, -⟩ := hok
      exact ⟨hphase, Finset.Subset.refl _, node, hmem, hdue, .inl rfl⟩
  | call node cancels =>
      obtain ⟨⟨-, ⟨hmem, -, hdue⟩, -⟩, -⟩ := hok
      let called : TimerWheel :=
        { w with
          timers := w.timers.erase node
          active := w.active \ cancels.toFinset
          phase := .calling now node }
      have hturn : turn now w (.call node cancels) = called.afterCallback now node := by
        rw [turn, TickTurn.steps, run_cons, run_append, run_cancels]
        rfl
      have hless : called.active ⊆ w.active := Finset.sdiff_subset
      rw [hturn, afterCallback]
      split
      · rename_i hback
        exact ⟨rfl, hless, node, hmem, hdue, .inr ⟨hback.1, hless hback.2, rfl⟩⟩
      · exact ⟨rfl, (Finset.erase_subset _ _).trans hless, node, hmem, hdue, .inl rfl⟩

/-! ## A loop that ends -/

/-- How many nodes are due. -/
def due (now : Nat) (w : TimerWheel) : Nat := w.timers.countP fun node => node.expireMs ≤ now

/-- The wheel is in the loop of `tick(now)`, and no due node comes back. -/
structure Draining (now : Nat) (w : TimerWheel) : Prop where
  phase : w.phase = .ticking now
  none_back : ∀ node, ¬w.ComesBack now node

theorem Draining.next {t : TickTurn} (h : Draining now w) (hok : CanTurn now w t) :
    Draining now (turn now w t) ∧ due now (turn now w t) < due now w := by
  obtain ⟨hphase, hactive, node, hmem, hdue, htimers⟩ := turn_cases h.phase hok
  have hcount : due now w = (w.timers.erase node).countP (fun node => node.expireMs ≤ now) + 1 := by
    rw [due, (List.perm_cons_erase hmem).countP_eq, List.countP_cons_of_pos (by simpa using hdue)]
  have hold : ∀ other ∈ w.timers.erase node, ¬(turn now w t).ComesBack now other := by
    rintro other hother ⟨-, hle, hrepeats, hlive, hback⟩
    exact h.none_back other
      ⟨List.mem_of_mem_erase hother, hle, hrepeats, hactive hlive, hback⟩
  obtain htimers | ⟨hrepeats, hlive, htimers⟩ := htimers
  · refine ⟨⟨hphase, fun other hback => ?_⟩, ?_⟩
    · exact hold other (htimers ▸ hback.1) hback
    · rw [due, htimers, hcount]
      exact Nat.lt_succ_self _
  · -- the node is pushed back, and nothing has wrapped around
    have hsafe : node.intervalMs ≠ 0 ∧ now + node.intervalMs < 2 ^ 64 := by
      have hnot := h.none_back node
      refine ⟨fun hzero => ?_, not_le.mp fun hwrap => ?_⟩
      · exact hnot ⟨hmem, hdue, hrepeats, hlive, .inl hzero⟩
      · exact hnot ⟨hmem, hdue, hrepeats, hlive, .inr hwrap⟩
    have hlater : now < (now + node.intervalMs) % 2 ^ 64 := by
      rw [Nat.mod_eq_of_lt hsafe.2]
      omega
    refine ⟨⟨hphase, fun other hback => ?_⟩, ?_⟩
    · have hother := hback.1
      rw [htimers] at hother
      rcases List.mem_cons.mp hother with rfl | hother
      · exact absurd hback.2.1 (not_le.mpr hlater)
      · exact hold other hother hback
    · rw [due, htimers, hcount, List.countP_cons_of_neg (by simpa using hlater)]
      exact Nat.lt_succ_self _

/-- Where nothing comes back, the loop takes at most one turn for each due node. -/
theorem tickEnds_of_none_back (hback : ∀ node, ¬w.ComesBack now node) : w.TickEnds now := by
  have hstart : Draining now (w.step (.tick now)) := ⟨rfl, hback⟩
  refine ⟨due now (w.step (.tick now)), fun turns hok => ?_⟩
  exact length_le_of_measure (fun _ _ h hok => (Draining.next h hok).1)
    (fun _ _ h hok => (Draining.next h hok).2) hstart hok

/-! ## A loop that need not end -/

/-- The wheel is in the loop of `tick(now)`, and some due node comes back. -/
structure Stuck (now : Nat) (w : TimerWheel) : Prop where
  phase : w.phase = .ticking now
  ids_nodup : (w.timers.map TimerNode.id).Nodup
  intervals : ∀ node ∈ w.timers, node.intervalMs < 2 ^ 64
  some_back : ∃ node, w.ComesBack now node

/-- What is pushed back is due again. -/
theorem due_again {interval : Nat} (hlt : interval < 2 ^ 64)
    (hback : interval = 0 ∨ 2 ^ 64 ≤ now + interval) : (now + interval) % 2 ^ 64 ≤ now := by
  rcases hback with rfl | hwrap
  · exact Nat.mod_le _ _
  · calc (now + interval) % 2 ^ 64 = (now + interval - 2 ^ 64) % 2 ^ 64 := Nat.mod_eq_sub_mod hwrap
      _ ≤ now + interval - 2 ^ 64 := Nat.mod_le _ _
      _ ≤ now := by omega

/-- A turn in which nothing is cancelled. -/
theorem exists_quiet_turn {top : TimerNode} (hphase : w.phase = .ticking now)
    (htop : w.TopDue now top) :
    ∃ t, (CanTurn now w t ∧ t.Quiet) ∧ turn now w t
      = { w with timers := w.timers.erase top, phase := .calling now top }.afterCallback now top := by
  by_cases hactive : top.id ∈ w.active
  · exact ⟨.call top [], ⟨⟨⟨hphase, htop, hactive⟩, ⟨now, top, rfl⟩, trivial⟩, rfl⟩, rfl⟩
  · refine ⟨.drop top, ⟨⟨⟨hphase, htop, hactive⟩, trivial⟩, trivial⟩, ?_⟩
    rw [afterCallback, if_neg fun hback => hactive hback.2]
    show { w with timers := w.timers.erase top } = { w with
      timers := w.timers.erase top, active := w.active.erase top.id, phase := .ticking now }
    rw [Finset.erase_eq_of_notMem hactive, ← hphase]

/-- A turn in which nothing is cancelled leaves a node that comes back. -/
theorem Stuck.next (h : Stuck now w) :
    ∃ t, (CanTurn now w t ∧ t.Quiet) ∧ Stuck now (turn now w t) := by
  obtain ⟨bad, hbad, hle, hrepeats, hlive, hback⟩ := h.some_back
  obtain hend | ⟨top, htop⟩ := endTick_or_turn h.phase
  · exact absurd (hend.2 bad hbad) (not_lt.mpr hle)
  obtain ⟨t, hok, hturn⟩ := exists_quiet_turn h.phase htop
  refine ⟨t, hok, ?_⟩
  have hmem := htop.1
  have hstay : bad ≠ top → bad ∈ w.timers.erase top :=
    fun hne => (List.mem_erase_of_ne hne).mpr hbad
  have hintervals : ∀ other ∈ w.timers.erase top, other.intervalMs < 2 ^ 64 :=
    fun other hother => h.intervals other (List.mem_of_mem_erase hother)
  rw [hturn, afterCallback]
  split
  · -- pushed back under a new expiry, so the ids are the same
    refine ⟨rfl, ?_, ?_, ?_⟩
    · have hperm := (List.perm_cons_erase hmem).map TimerNode.id
      exact hperm.nodup_iff.mp h.ids_nodup
    · exact List.forall_mem_cons.mpr ⟨h.intervals top hmem, hintervals⟩
    · by_cases heq : bad = top
      · subst heq
        have hdue := due_again (h.intervals bad hbad) hback
        exact ⟨_, List.mem_cons_self, hdue, hrepeats, hlive, hback⟩
      · exact ⟨bad, List.mem_cons_of_mem _ (hstay heq), hle, hrepeats, hlive, hback⟩
  · -- dropped, and it is another node than the one that comes back
    rename_i hdropped
    have hne : bad ≠ top := by
      rintro rfl
      exact hdropped ⟨hrepeats, hlive⟩
    have hid : bad.id ≠ top.id := fun hid =>
      hne (List.inj_on_of_nodup_map h.ids_nodup hbad hmem hid)
    refine ⟨rfl, h.ids_nodup.sublist (List.erase_sublist.map _), hintervals, bad, hstay hne, hle,
      hrepeats, Finset.mem_erase.mpr ⟨hid, hlive⟩, hback⟩

/-- The loop goes on for ever, although no callback does anything. -/
def TickSpins (w : TimerWheel) (now : Nat) : Prop :=
  ∃ turns : Nat → TickTurn, ∀ n, Admissible (turn now) (fun w t => CanTurn now w t ∧ t.Quiet)
    (w.step (.tick now)) ((List.range n).map turns)

theorem not_tickEnds_of_spins (h : w.TickSpins now) : ¬w.TickEnds now := by
  rintro ⟨n, hn⟩
  obtain ⟨turns, hturns⟩ := h
  have hlen := hn _ ((hturns (n + 1)).mono fun _ _ hok => hok.1)
  rw [List.length_map, List.length_range] at hlen
  omega

theorem tickSpins_of_back (hids : (w.timers.map TimerNode.id).Nodup)
    (hintervals : ∀ node ∈ w.timers, node.intervalMs < 2 ^ 64) {node : TimerNode}
    (hback : w.ComesBack now node) : w.TickSpins now := by
  have hstart : Stuck now (w.step (.tick now)) := ⟨rfl, hids, hintervals, node, hback⟩
  exact exists_endless (fun _ h => Stuck.next h) hstart

/-! ## Every wheel -/

/-- What may happen to a wheel: anything, with 64-bit delays, and fewer than `2 ^ 64` timers. -/
def Possible (w : TimerWheel) (s : TimerStep) : Prop :=
  w.Enabled s ∧ ∀ clock delay repeats, s = .addTimer clock delay repeats →
    delay < 2 ^ 64 ∧ w.added + 1 < 2 ^ 64

theorem step_intervals {s : TimerStep} (h : ∀ node ∈ w.nodes, node.intervalMs < 2 ^ 64)
    (hok : w.Possible s) : ∀ node ∈ (w.step s).nodes, node.intervalMs < 2 ^ 64 := by
  obtain ⟨hen, hrange⟩ := hok
  cases s with
  | addTimer clock delay repeats =>
      intro node hnode
      have hperm : (w.addTimer clock delay repeats).nodes.Perm
          (w.newNode clock delay repeats :: w.nodes) := List.perm_middle
      rcases List.mem_cons.mp (hperm.mem_iff.mp hnode) with rfl | hold
      · have hdelay := (hrange clock delay repeats rfl).1
        show (if repeats = true then delay else 0) < 2 ^ 64
        split
        · exact hdelay
        · omega
      · exact h node hold
  | cancel id => exact h
  | tick now =>
      intro node hnode
      have hidle : w.phase = .idle := hen
      rw [nodes, hidle] at h
      exact h node hnode
  | run now top =>
      obtain ⟨hphase, ⟨hmem, -, -⟩, -⟩ := hen
      intro node hnode
      exact h node ((pop_nodes hphase hmem).1.mem_iff.mp hnode)
  | skip now top =>
      obtain ⟨hphase, ⟨hmem, -, -⟩, -⟩ := hen
      intro node hnode
      exact h node ((pop_nodes hphase hmem).2.subset hnode)
  | returns =>
      obtain ⟨now, top, hphase⟩ := hen
      rw [nodes, hphase] at h
      intro node hnode
      rw [step, hphase] at hnode
      simp only [afterCallback] at hnode
      split at hnode
      · rcases List.mem_cons.mp hnode with rfl | hold
        · exact h top List.mem_cons_self
        · exact h node (List.mem_cons_of_mem _ hold)
      · exact h node (List.mem_cons_of_mem _ hnode)
  | endTick now =>
      have hphase : w.phase = .ticking now := hen.1
      intro node hnode
      rw [nodes, hphase] at h
      exact h node hnode

/-- Whatever has happened, ids and intervals are in order. -/
theorem numbered_run {clock : Nat} {trace : List TimerStep}
    (htrace : Admissible step Possible (init clock) trace) :
    (LightNet.Foundation.run step (init clock) trace).Numbered
      ∧ ∀ node ∈ (LightNet.Foundation.run step (init clock) trace).nodes,
        node.intervalMs < 2 ^ 64 := by
  have hstep : ∀ (w : TimerWheel) (s : TimerStep),
      (w.Numbered ∧ ∀ node ∈ w.nodes, node.intervalMs < 2 ^ 64) → w.Possible s →
      (w.step s).Numbered ∧ ∀ node ∈ (w.step s).nodes, node.intervalMs < 2 ^ 64 := by
    rintro w s ⟨hnumbered, hintervals⟩ hok
    refine ⟨step_numbered hnumbered hok.1 ?_, step_intervals hintervals hok⟩
    exact fun clock delay repeats hs => (hok.2 clock delay repeats hs).2
  refine run_invariant hstep ⟨(init_inv clock).numbered, fun node hnode => ?_⟩ htrace
  exact absurd hnode List.not_mem_nil

/-- **When `tick` ends.** Whatever has happened to the wheel, `tick(now)` ends, for all that the
callbacks may cancel, if and only if no due timer comes back: none that repeats with an interval of
zero, or with one for which `now + interval` wraps around.  Where one does, the loop goes on for ever
as soon as the callbacks cancel nothing. -/
theorem tick_ends_iff (clock : Nat) (trace : List TimerStep)
    (htrace : Admissible step Possible (init clock) trace)
    (hidle : (LightNet.Foundation.run step (init clock) trace).phase = .idle) (now : Nat) :
    let w := LightNet.Foundation.run step (init clock) trace
    (w.TickEnds now ↔ ∀ node, ¬w.ComesBack now node)
      ∧ (w.TickSpins now ↔ ∃ node, w.ComesBack now node) := by
  intro w
  have hnodes : w.nodes = w.timers := by
    rw [nodes, hidle]
    rfl
  obtain ⟨hnumbered, hintervals⟩ :
      w.Numbered ∧ ∀ node ∈ w.nodes, node.intervalMs < 2 ^ 64 := numbered_run htrace
  have hids := hnumbered.ids_nodup
  rw [hnodes] at hids hintervals
  have hspins : (∃ node, w.ComesBack now node) → w.TickSpins now := by
    rintro ⟨node, hback⟩
    exact tickSpins_of_back hids hintervals hback
  refine ⟨⟨fun hends node hback => ?_, tickEnds_of_none_back⟩, ⟨fun hspin => ?_, hspins⟩⟩
  · exact not_tickEnds_of_spins (hspins ⟨node, hback⟩) hends
  · by_contra hnone
    exact not_tickEnds_of_spins hspin (tickEnds_of_none_back fun node hback => hnone ⟨node, hback⟩)

/-- A timer that is due and repeats after 5 ms: its tick ends. -/
theorem tick_ends_iff_sample :
    (LightNet.Foundation.run step (init 0) [.addTimer 0 5 true]).TickEnds 7 := by
  refine (tick_ends_iff 0 [.addTimer 0 5 true] ⟨⟨rfl, ?_⟩, trivial⟩ rfl 7).1.mpr ?_
  · rintro _ _ _ ⟨⟩
    exact ⟨by decide, by decide⟩
  · rintro node ⟨hmem, -, -, -, hback⟩
    obtain rfl := List.mem_singleton.mp hmem
    exact absurd hback (by decide)

end TimerWheel

end LightNet.Core
