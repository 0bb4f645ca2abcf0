/-
# LightNet.Core.TimerContract — when the callbacks of the timers run.

`mem_timers_step`, `calling_step` and `active_step` say once what a step can do to the nodes of the
heap, to the node in flight and to the active ids.  Each part of the contract is then an invariant of
its own, carried along the part of the run it speaks about: from the `add_timer` of a timer, from its
`cancel`, or from one run of a callback to the next.
-/
import LightNet.Core.TimerWheel

namespace LightNet.Core

open LightNet.Foundation

namespace TimerStep

/-- The step runs the callback of timer `id`. -/
def runs (id : Nat) : TimerStep → Bool
  | run _ node => node.id = id
  | _ => false

theorem runs_iff {id : Nat} {s : TimerStep} :
    s.runs id = true ↔ ∃ now node, s = run now node ∧ node.id = id := by
  constructor
  · intro h
    cases s with
    | run now node => exact ⟨now, node, rfl, of_decide_eq_true h⟩
    | addTimer _ _ _ | cancel _ | tick _ | skip _ _ | returns | endTick _ =>
        exact absurd h Bool.false_ne_true
  · rintro ⟨now, node, rfl, hid⟩
    exact decide_eq_true hid

/-- The step begins or ends a tick. -/
def BoundsTick : TimerStep → Prop
  | tick _ | endTick _ => True
  | _ => False

end TimerStep

namespace TimerWheel

/-! ## What a step does -/

theorem allocated_step {w : TimerWheel} {s : TimerStep} {id : Nat} (h : w.Allocated id) :
    (w.step s).Allocated id := by
  cases s with
  | addTimer clock delay repeats => exact h.addTimer clock delay repeats
  | returns =>
      rw [step]
      split
      · unfold afterCallback
        split <;> exact h
      · exact h
  | cancel _ => exact h
  | tick _ => exact h
  | run _ _ => exact h
  | skip _ _ => exact h
  | endTick _ => exact h

/-- The node that comes back to the heap when a callback returns. -/
def renewed (now : Nat) (node : TimerNode) : TimerNode :=
  { node with expireMs := now + node.intervalMs }

/-- A node of the heap was there before, is new, or is pushed back. -/
theorem mem_timers_step {w : TimerWheel} {s : TimerStep} (h : w.Inv) (hok : w.Legal s)
    {other : TimerNode} (hmem : other ∈ (w.step s).timers) :
    other ∈ w.timers ∨ (¬w.Allocated other.id ∧ w.clock ≤ other.expireMs)
      ∨ ∃ now node, w.phase = .calling now node ∧ node.repeats = true
          ∧ other = renewed now node := by
  obtain ⟨hen, hrange⟩ := hok
  cases s with
  | addTimer clock delay repeats =>
      obtain ⟨hclock, hsum, hadded⟩ := hrange
      rcases List.mem_cons.mp hmem with rfl | hold
      · refine .inr (.inl ⟨(h.nextId_fresh hadded).2, ?_⟩)
        show w.clock ≤ (clock + delay) % 2 ^ 64
        rw [Nat.mod_eq_of_lt hsum]
        exact Nat.le_add_right_of_le hclock
      · exact .inl hold
  | returns =>
      obtain ⟨now, node, hphase⟩ := hen
      simp only [step, hphase, afterCallback] at hmem
      split at hmem
      · rename_i hagain
        rcases List.mem_cons.mp hmem with rfl | hold
        · refine .inr (.inr ⟨now, node, hphase, hagain.1, ?_⟩)
          rw [renewed, Nat.mod_eq_of_lt (hrange now node hphase)]
        · exact .inl hold
      · exact .inl hmem
  | run now node => exact .inl (List.mem_of_mem_erase hmem)
  | skip now node => exact .inl (List.mem_of_mem_erase hmem)
  | cancel _ => exact .inl hmem
  | tick _ => exact .inl hmem
  | endTick _ => exact .inl hmem

/-- A callback that runs has just been called, or has been running. -/
theorem calling_step {w : TimerWheel} {s : TimerStep} (hok : w.Legal s) {now : Nat}
    {node : TimerNode} (hphase : (w.step s).phase = .calling now node) :
    w.phase = .calling now node ∨ s = .run now node := by
  cases s with
  | run t other =>
      obtain ⟨rfl, rfl⟩ := TickPhase.calling.inj hphase
      exact .inr rfl
  | returns =>
      obtain ⟨t, other, hcall⟩ := hok.1
      simp only [step, hcall, afterCallback] at hphase
      split at hphase <;> cases hphase
  | addTimer _ _ _ => exact .inl hphase
  | cancel _ => exact .inl hphase
  | skip _ _ => exact .inl hphase
  | tick _ => cases hphase
  | endTick _ => cases hphase

/-- Only a new id becomes active. -/
theorem active_step {w : TimerWheel} {s : TimerStep} (h : w.Inv) (hok : w.Legal s) {id : Nat}
    (hmem : id ∈ (w.step s).active) : id ∈ w.active ∨ ¬w.Allocated id := by
  cases s with
  | addTimer clock delay repeats =>
      rcases Finset.mem_insert.mp hmem with rfl | hold
      · exact .inr (h.nextId_fresh hok.2.2.2).2
      · exact .inl hold
  | cancel other => exact .inl (Finset.mem_of_mem_erase hmem)
  | returns =>
      obtain ⟨now, node, hphase⟩ := hok.1
      simp only [step, hphase, afterCallback] at hmem
      split at hmem
      · exact .inl hmem
      · exact .inl (Finset.mem_of_mem_erase hmem)
  | tick _ => exact .inl hmem
  | run _ _ => exact .inl hmem
  | skip _ _ => exact .inl hmem
  | endTick _ => exact .inl hmem

/-! ## Cancelling -/

/-- Timer `id` has been cancelled. -/
def Cancelled (id : Nat) (w : TimerWheel) : Prop := w.Inv ∧ w.Allocated id ∧ id ∉ w.active

theorem cancelled_step {id : Nat} {w : TimerWheel} {s : TimerStep} (h : Cancelled id w)
    (hok : w.Legal s) : Cancelled id (w.step s) := by
  obtain ⟨hinv, halloc, hout⟩ := h
  refine ⟨step_inv hinv hok, allocated_step halloc, ?_⟩
  intro hmem
  rcases active_step hinv hok hmem with hold | hfresh
  · exact hout hold
  · exact hfresh halloc

theorem not_runs_of_cancelled {id : Nat} {w : TimerWheel} {s : TimerStep} (h : Cancelled id w)
    (hok : w.Legal s) : s.runs id ≠ true := by
  intro hrun
  obtain ⟨now, node, rfl, rfl⟩ := TimerStep.runs_iff.mp hrun
  exact h.2.2 hok.1.2.2

/-! ## What a timer keeps -/

/-- All nodes of timer `id` meet `P`. -/
def Keeps (id : Nat) (P : TimerNode → Prop) (w : TimerWheel) : Prop :=
  w.Inv ∧ w.Allocated id ∧ ∀ node ∈ w.nodes, node.id = id → P node

theorem keeps_step {id : Nat} {P : TimerNode → Prop}
    (hrenew : ∀ now node, P node → node.repeats = true → P (renewed now node)) {w : TimerWheel}
    {s : TimerStep} (h : Keeps id P w) (hok : w.Legal s) : Keeps id P (w.step s) := by
  obtain ⟨hinv, halloc, hkeep⟩ := h
  refine ⟨step_inv hinv hok, allocated_step halloc, ?_⟩
  intro other hother hid
  rcases mem_nodes.mp hother with ⟨now, hphase⟩ | hmem
  · rcases calling_step hok hphase with hold | rfl
    · exact hkeep other (mem_nodes.mpr (.inl ⟨now, hold⟩)) hid
    · exact hkeep other (mem_nodes.mpr (.inr hok.1.2.1.1)) hid
  · rcases mem_timers_step hinv hok hmem with hold | ⟨hfresh, -⟩ | ⟨now, node, hphase, hrep, rfl⟩
    · exact hkeep other (mem_nodes.mpr (.inr hold)) hid
    · rw [hid] at hfresh
      exact absurd halloc hfresh
    · exact hrenew now node (hkeep node (mem_nodes.mpr (.inl ⟨now, hphase⟩)) hid) hrep

/-- The node that is run is one of the heap. -/
theorem Keeps.of_run {id : Nat} {P : TimerNode → Prop} {w : TimerWheel} (h : Keeps id P w) {now : Nat}
    {node : TimerNode} (hok : w.Legal (.run now node)) (hid : node.id = id) : P node :=
  h.2.2 node (mem_nodes.mpr (.inr hok.1.2.1.1)) hid

/-- Right after `add_timer`, the new timer has the new node and is active. -/
theorem keeps_addTimer {w : TimerWheel} {clock delay : Nat} {repeats : Bool} (h : w.Inv)
    (hok : w.Legal (.addTimer clock delay repeats)) :
    Keeps w.nextId (· = w.newNode clock delay repeats) (w.step (.addTimer clock delay repeats)) := by
  have hinv := step_inv h hok
  have hnew : w.newNode clock delay repeats ∈ (w.step (.addTimer clock delay repeats)).nodes :=
    mem_nodes.mpr (.inr List.mem_cons_self)
  refine ⟨hinv, hinv.nodes_allocated _ hnew, ?_⟩
  intro node hnode hid
  exact hinv.node_unique hnode hnew hid

/-! ## One shot -/

/-- A timer without repetition that has been run: no node of it is left in the heap. -/
def Spent (id : Nat) (w : TimerWheel) : Prop :=
  Keeps id (fun node => node.repeats = false) w ∧ ∀ node ∈ w.timers, node.id ≠ id

theorem spent_step {id : Nat} {w : TimerWheel} {s : TimerStep} (h : Spent id w) (hok : w.Legal s) :
    Spent id (w.step s) := by
  obtain ⟨hkeep, hgone⟩ := h
  have hrenew : ∀ now (node : TimerNode), node.repeats = false → node.repeats = true →
      (renewed now node).repeats = false := fun _ _ hno _ => hno
  refine ⟨keeps_step hrenew hkeep hok, ?_⟩
  intro other hmem hid
  rcases mem_timers_step hkeep.1 hok hmem with hold | ⟨hfresh, -⟩ | ⟨now, node, hphase, hrep, rfl⟩
  · exact hgone other hold hid
  · rw [hid] at hfresh
    exact hfresh hkeep.2.1
  · have hno := hkeep.2.2 node (mem_nodes.mpr (.inl ⟨now, hphase⟩)) hid
    rw [hno] at hrep
    exact Bool.false_ne_true hrep

theorem not_runs_of_spent {id : Nat} {w : TimerWheel} {s : TimerStep} (h : Spent id w)
    (hok : w.Legal s) : s.runs id ≠ true := by
  intro hrun
  obtain ⟨now, node, rfl, hid⟩ := TimerStep.runs_iff.mp hrun
  exact h.2 node hok.1.2.1.1 hid

/-- The run of the callback spends the timer. -/
theorem spent_of_run {id : Nat} {w : TimerWheel} {now : Nat} {node : TimerNode}
    (h : Keeps id (fun node => node.repeats = false) w) (hok : w.Legal (.run now node))
    (hid : node.id = id) : Spent id (w.step (.run now node)) := by
  refine ⟨keeps_step (fun _ _ hno _ => hno) h hok, ?_⟩
  intro other hmem hother
  have hin : other ∈ w.timers := List.mem_of_mem_erase hmem
  have heq : other = node := h.1.node_unique (mem_nodes.mpr (.inr hin))
    (mem_nodes.mpr (.inr hok.1.2.1.1)) (hother.trans hid.symm)
  subst heq
  exact h.1.timers_nodup.not_mem_erase hmem

/-- The timer is in the heap and active. -/
def Waiting (node : TimerNode) (w : TimerWheel) : Prop :=
  w.Inv ∧ node ∈ w.timers ∧ node.id ∈ w.active

theorem waiting_step {node : TimerNode} {w : TimerWheel} {s : TimerStep} (h : Waiting node w)
    (hok : w.Legal s ∧ s ≠ .cancel node.id ∧ s.runs node.id ≠ true) : Waiting node (w.step s) := by
  obtain ⟨hinv, hmem, hactive⟩ := h
  obtain ⟨hlegal, hcancel, hruns⟩ := hok
  refine ⟨step_inv hinv hlegal, ?_⟩
  cases s with
  | addTimer clock delay repeats =>
      exact ⟨List.mem_cons_of_mem _ hmem, Finset.mem_insert_of_mem hactive⟩
  | cancel other =>
      refine ⟨hmem, Finset.mem_erase_of_ne_of_mem ?_ hactive⟩
      exact fun heq => hcancel (by rw [heq])
  | tick now => exact ⟨hmem, hactive⟩
  | run now other =>
      refine ⟨(List.mem_erase_of_ne ?_).mpr hmem, hactive⟩
      rintro rfl
      exact hruns (TimerStep.runs_iff.mpr ⟨now, node, rfl, rfl⟩)
  | skip now other =>
      refine ⟨(List.mem_erase_of_ne ?_).mpr hmem, hactive⟩
      rintro rfl
      exact hlegal.1.2.2 hactive
  | returns =>
      obtain ⟨now, other, hphase⟩ := hlegal.1
      simp only [step, hphase, afterCallback]
      split
      · exact ⟨List.mem_cons_of_mem _ hmem, hactive⟩
      · refine ⟨hmem, Finset.mem_erase_of_ne_of_mem ?_ hactive⟩
        -- the node in flight is another one
        intro heq
        have hnodup := hinv.ids_nodup
        rw [nodes, hphase] at hnodup
        exact (List.nodup_cons.mp hnodup).1 (heq ▸ List.mem_map_of_mem hmem)
  | endTick now => exact ⟨hmem, hactive⟩

/-! ## Times -/

/-- A tick keeps its time until it ends. -/
theorem now_step {w : TimerWheel} {s : TimerStep} {now : Nat} (h : w.phase.now? = some now)
    (hok : w.Legal s) : (w.step s).phase.now? = some now ∨ s = .endTick now := by
  cases s with
  | addTimer _ _ _ => exact .inl h
  | cancel _ => exact .inl h
  | tick t =>
      have hidle : w.phase = .idle := hok.1
      rw [hidle] at h
      cases h
  | run t node =>
      rw [hok.1.1] at h
      exact .inl h
  | skip t node => exact .inl h
  | returns =>
      obtain ⟨t, node, hphase⟩ := hok.1
      rw [hphase] at h
      simp only [step, hphase, afterCallback]
      split <;> exact .inl h
  | endTick t =>
      rw [hok.1.1] at h
      obtain rfl := Option.some.inj h
      exact .inr rfl

/-- In a tick whose end is still to come, no other tick begins or ends. -/
theorem not_boundsTick {w : TimerWheel} {s : TimerStep} {now : Nat} (h : w.phase.now? = some now)
    (hok : w.Legal s ∧ s ≠ .endTick now) : ¬s.BoundsTick := by
  cases s with
  | tick t =>
      have hidle : w.phase = .idle := hok.1.1
      rw [hidle] at h
      cases h
  | endTick t =>
      rw [hok.1.1.1] at h
      obtain rfl := Option.some.inj h
      exact absurd rfl hok.2
  | addTimer _ _ _ | cancel _ | run _ _ | skip _ _ | returns => exact not_false

/-- **Liveness.** A one-shot timer that waits, and is not cancelled, has been run by the end of the
first tick that completes at or after its expiry, in that tick. -/
theorem run_before_endTick {w : TimerWheel} {node : TimerNode} (hwait : Waiting node w)
    (hkeep : Keeps node.id (· = node) w) (hrep : node.repeats = false) {mid : List TimerStep} {now : Nat}
    (hok : Admissible step Legal w (mid ++ [.endTick now])) (hdue : node.expireMs ≤ now)
    (hcancel : .cancel node.id ∉ mid)
    (hfirst : ∀ t, .endTick t ∈ mid → t < node.expireMs) :
    ∃ m₁ m₂, mid = m₁ ++ .run now node :: m₂ ∧ ∀ s ∈ m₂, ¬s.BoundsTick := by
  obtain ⟨hmid, hend, -⟩ := admissible_append.mp hok
  by_cases hrun : ∃ s ∈ mid, s.runs node.id = true
  · obtain ⟨s, hs, hruns⟩ := hrun
    obtain ⟨t, other, rfl, hid⟩ := TimerStep.runs_iff.mp hruns
    obtain ⟨m₁, m₂, rfl⟩ := List.append_of_mem hs
    obtain ⟨hm₁, hlegal, hm₂⟩ := admissible_append.mp hmid
    -- what has been run is the node, and not before its expiry
    have hkeep₁ := run_invariant (fun _ _ => keeps_step fun _ n hn hr => by
      rw [hn, hrep] at hr; exact absurd hr Bool.false_ne_true) hkeep hm₁
    obtain rfl : other = node := hkeep₁.of_run hlegal hid
    have hle : other.expireMs ≤ t := hlegal.1.2.1.2.2
    -- that tick has not ended since
    have hnot : ∀ s ∈ m₂, s ≠ .endTick t := by
      rintro s hs rfl
      exact absurd (hfirst t (List.mem_append_right _ (List.mem_cons_of_mem _ hs))) (by omega)
    have hstill := hm₂.and_forall hnot
    have hkeepNow : ∀ (v : TimerWheel) s, v.phase.now? = some t → v.Legal s ∧ s ≠ .endTick t →
        (v.step s).phase.now? = some t :=
      fun v s hv hs => (now_step hv hs.1).resolve_right hs.2
    have hsame := run_invariant hkeepNow rfl hstill
    rw [run_append, run_cons] at hend
    have hphase := hend.1.1
    rw [hphase] at hsame
    obtain rfl : now = t := Option.some.inj hsame
    refine ⟨m₁, m₂, rfl, ?_⟩
    exact hstill.forall_mem hkeepNow (fun v s hv hs => not_boundsTick hv hs) rfl
  · -- otherwise it still waits, and the tick could not have ended
    have hquiet : ∀ s ∈ mid, s ≠ .cancel node.id ∧ s.runs node.id ≠ true := by
      intro s hs
      refine ⟨?_, fun hruns => hrun ⟨s, hs, hruns⟩⟩
      rintro rfl
      exact hcancel hs
    have hstill := run_invariant (fun _ _ => waiting_step) hwait (hmid.and_forall hquiet)
    exact absurd (hend.1.2 node hstill.2.1) (by omega)

/-! ## Repetition -/

/-- The node repeats every `delay` milliseconds. -/
def Every (delay : Nat) (node : TimerNode) : Prop := node.repeats = true ∧ node.intervalMs = delay

theorem every_renewed {delay : Nat} (now : Nat) (node : TimerNode) (h : Every delay node)
    (_ : node.repeats = true) : Every delay (renewed now node) := h

/-- The timer has been run at `since`, and is not due again before `since + delay`. -/
def Spaced (id delay since : Nat) (w : TimerWheel) : Prop :=
  Keeps id (Every delay) w ∧ (∀ node ∈ w.timers, node.id = id → since + delay ≤ node.expireMs)
    ∧ ∀ now node, w.phase = .calling now node → node.id = id → since ≤ now

theorem spaced_step {id delay since : Nat} {w : TimerWheel} {s : TimerStep}
    (h : Spaced id delay since w) (hok : w.Legal s) : Spaced id delay since (w.step s) := by
  obtain ⟨hkeep, hheap, hcall⟩ := h
  refine ⟨keeps_step every_renewed hkeep hok, ?_, ?_⟩
  · intro other hmem hid
    rcases mem_timers_step hkeep.1 hok hmem with hold | ⟨hfresh, -⟩ | ⟨now, node, hphase, -, rfl⟩
    · exact hheap other hold hid
    · rw [hid] at hfresh
      exact absurd hkeep.2.1 hfresh
    · have hevery := hkeep.2.2 node (mem_nodes.mpr (.inl ⟨now, hphase⟩)) hid
      have hsince := hcall now node hphase hid
      show since + delay ≤ now + node.intervalMs
      rw [hevery.2]
      exact Nat.add_le_add_right hsince delay
  · intro now node hphase hid
    rcases calling_step hok hphase with hold | rfl
    · exact hcall now node hold hid
    · obtain ⟨hmem, -, hdue⟩ := hok.1.2.1
      have hle := hheap node hmem hid
      omega

theorem spaced_of_run {id delay now : Nat} {node : TimerNode} {w : TimerWheel}
    (h : Keeps id (Every delay) w) (hok : w.Legal (.run now node)) (hid : node.id = id) :
    Spaced id delay now (w.step (.run now node)) := by
  refine ⟨keeps_step every_renewed h hok, ?_, ?_⟩
  · intro other hmem hother
    have hin : other ∈ w.timers := List.mem_of_mem_erase hmem
    have heq : other = node := h.1.node_unique (mem_nodes.mpr (.inr hin))
      (mem_nodes.mpr (.inr hok.1.2.1.1)) (hother.trans hid.symm)
    subst heq
    exact absurd hmem h.1.timers_nodup.not_mem_erase
  · rintro t other ⟨⟩ -
    exact le_refl _

/-- The timer has its node, and its id is active. -/
def Alive (id delay : Nat) (w : TimerWheel) : Prop :=
  Keeps id (Every delay) w ∧ id ∈ w.active ∧ ∃ node ∈ w.nodes, node.id = id

theorem alive_step {id delay : Nat} {w : TimerWheel} {s : TimerStep} (h : Alive id delay w)
    (hok : w.Legal s ∧ s ≠ .cancel id) : Alive id delay (w.step s) := by
  obtain ⟨hkeep, hactive, node, hnode, hid⟩ := h
  obtain ⟨hlegal, hcancel⟩ := hok
  refine ⟨keeps_step every_renewed hkeep hlegal, ?_⟩
  cases s with
  | addTimer clock delay repeats =>
      refine ⟨Finset.mem_insert_of_mem hactive, node, ?_, hid⟩
      exact List.perm_middle.mem_iff.mpr (List.mem_cons_of_mem _ hnode)
  | cancel other =>
      refine ⟨Finset.mem_erase_of_ne_of_mem ?_ hactive, node, hnode, hid⟩
      exact fun heq => hcancel (by rw [heq])
  | tick now =>
      have hidle : w.phase = .idle := hlegal.1
      rw [nodes, hidle] at hnode
      exact ⟨hactive, node, hnode, hid⟩
  | run now other =>
      exact ⟨hactive, node, (pop_nodes hlegal.1.1 hlegal.1.2.1.1).1.mem_iff.mpr hnode, hid⟩
  | skip now other =>
      refine ⟨hactive, node, ?_, hid⟩
      have hne : node ≠ other := by
        rintro rfl
        exact hlegal.1.2.2 (hid ▸ hactive)
      rw [nodes, hlegal.1.1] at hnode
      show node ∈ w.phase.inFlight ++ w.timers.erase other
      rw [hlegal.1.1]
      exact (List.mem_erase_of_ne hne).mpr hnode
  | returns =>
      obtain ⟨now, other, hphase⟩ := hlegal.1
      rw [nodes, hphase] at hnode
      simp only [step, hphase, afterCallback]
      rcases List.mem_cons.mp hnode with rfl | hmem
      · -- its own callback returns, and it is pushed back
        have hrep := (hkeep.2.2 node (mem_nodes.mpr (.inl ⟨now, hphase⟩)) hid).1
        rw [if_pos ⟨hrep, hid ▸ hactive⟩]
        exact ⟨hactive, _, List.mem_cons_self, hid⟩
      · have hne : id ≠ other.id := by
          intro heq
          have hnodup := hkeep.1.ids_nodup
          rw [nodes, hphase] at hnodup
          exact (List.nodup_cons.mp hnodup).1 (heq ▸ hid ▸ List.mem_map_of_mem hmem)
        split
        · exact ⟨hactive, node, List.mem_cons_of_mem _ hmem, hid⟩
        · exact ⟨Finset.mem_erase_of_ne_of_mem hne hactive, node, hmem, hid⟩
  | endTick now =>
      rw [nodes, hlegal.1.1] at hnode
      exact ⟨hactive, node, hnode, hid⟩

/-! ## The order within a tick -/

/-- In the tick of time `now` nothing that expired before `expiry` is left. -/
def Ordered (now expiry : Nat) (w : TimerWheel) : Prop :=
  w.Inv ∧ (w.phase = .idle
    ∨ w.phase.now? = some now ∧ ∀ node ∈ w.timers, expiry ≤ node.expireMs)

theorem ordered_step {now expiry : Nat} (hle : expiry ≤ now) {w : TimerWheel} {s : TimerStep}
    (h : Ordered now expiry w) (hok : w.Legal s ∧ ∀ t, s ≠ .tick t) : Ordered now expiry (w.step s) := by
  obtain ⟨hinv, hwhere⟩ := h
  obtain ⟨hlegal, htick⟩ := hok
  refine ⟨step_inv hinv hlegal, ?_⟩
  rcases hwhere with hidle | ⟨hnow, hheap⟩
  · -- between ticks only user code runs
    left
    cases s with
    | addTimer _ _ _ => exact hidle
    | cancel _ => exact hidle
    | tick t => exact absurd rfl (htick t)
    | run t node => exact absurd (hidle.symm.trans hlegal.1.1) nofun
    | skip t node => exact absurd (hidle.symm.trans hlegal.1.1) nofun
    | returns =>
        obtain ⟨t, node, hphase⟩ := hlegal.1
        exact absurd (hidle.symm.trans hphase) nofun
    | endTick t => rfl
  · rcases now_step hnow hlegal with hstill | rfl
    · refine .inr ⟨hstill, ?_⟩
      intro other hmem
      have hclock := hinv.now_le now hnow
      rcases mem_timers_step hinv hlegal hmem with hold | ⟨-, hnew⟩ | ⟨t, node, hphase, -, rfl⟩
      · exact hheap other hold
      · omega
      · rw [hphase] at hnow
        obtain rfl : t = now := Option.some.inj hnow
        exact Nat.le_add_right_of_le hle
    · exact .inl rfl

theorem ordered_of_run {w : TimerWheel} {now : Nat} {node : TimerNode} (h : w.Inv)
    (hok : w.Legal (.run now node)) : Ordered now node.expireMs (w.step (.run now node)) := by
  refine ⟨step_inv h hok, .inr ⟨rfl, ?_⟩⟩
  intro other hmem
  exact hok.1.2.1.2.1 other (List.mem_of_mem_erase hmem)

/-- Whatever is run next, without another tick having begun, is in the same tick and expired no
earlier. -/
theorem Ordered.of_run {now expiry : Nat} {w : TimerWheel} (h : Ordered now expiry w) {t : Nat}
    {node : TimerNode} (hok : w.Legal (.run t node)) : t = now ∧ expiry ≤ node.expireMs := by
  rcases h.2 with hidle | ⟨hnow, hheap⟩
  · exact absurd (hidle.symm.trans hok.1.1) nofun
  · rw [hok.1.1] at hnow
    exact ⟨Option.some.inj hnow, hheap node hok.1.2.1.1⟩

/-! ## The contract -/

/-- Part (a): a one-shot timer runs at most once, never in a tick before its expiry, and, unless it
has been cancelled, in the first tick that completes at or after its expiry. -/
def OneShotRuns (start : Nat) (trace : List TimerStep) : Prop :=
  ∀ before clock delay rest, trace = before ++ .addTimer clock delay false :: rest →
    let id := (run step (init start) before).nextId
    rest.countP (TimerStep.runs id) ≤ 1
      ∧ (∀ now node, .run now node ∈ rest → node.id = id → clock + delay ≤ now)
      ∧ ∀ mid now later, rest = mid ++ .endTick now :: later → clock + delay ≤ now →
          .cancel id ∉ mid → (∀ t, .endTick t ∈ mid → t < clock + delay) →
          ∃ m₁ node m₂, mid = m₁ ++ .run now node :: m₂ ∧ node.id = id ∧ ∀ s ∈ m₂, ¬s.BoundsTick

/-- Part (b): what has been cancelled does not run again. -/
def CancelStops (start : Nat) (trace : List TimerStep) : Prop :=
  ∀ before clock delay repeats mid rest,
    trace = before ++ .addTimer clock delay repeats
      :: (mid ++ .cancel (run step (init start) before).nextId :: rest) →
    ∀ now node, .run now node ∈ rest → node.id ≠ (run step (init start) before).nextId

/-- Part (c): two runs of a repeating timer are in different ticks and at least the interval apart,
and as long as it is not cancelled it lives on under its id. -/
def RepeatsSpaced (start : Nat) (trace : List TimerStep) : Prop :=
  ∀ before clock delay rest, trace = before ++ .addTimer clock delay true :: rest → 0 < delay →
    let id := (run step (init start) before).nextId
    (∀ m₁ now₁ node₁ m₂ now₂ node₂ m₃,
        rest = m₁ ++ .run now₁ node₁ :: (m₂ ++ .run now₂ node₂ :: m₃) →
        node₁.id = id → node₂.id = id → (∃ t, .tick t ∈ m₂) ∧ now₁ + delay ≤ now₂)
      ∧ ∀ mid later, rest = mid ++ later → .cancel id ∉ mid →
          Alive id delay (run step (init start) (before ++ .addTimer clock delay true :: mid))

/-- Part (d): within a tick the callbacks run in the order of their expiry. -/
def TickInOrder (trace : List TimerStep) : Prop :=
  ∀ before now₁ node₁ mid now₂ node₂ later,
    trace = before ++ .run now₁ node₁ :: (mid ++ .run now₂ node₂ :: later) →
    (∀ t, .tick t ∉ mid) → node₁.expireMs ≤ node₂.expireMs

/-- If nothing that meets `p` comes after something that does, at most one element meets it. -/
theorem countP_le_one {α : Type} {p : α → Bool} {l : List α}
    (h : ∀ m₁ x m₂, l = m₁ ++ x :: m₂ → p x = true → ∀ y ∈ m₂, p y ≠ true) : l.countP p ≤ 1 := by
  induction l with
  | nil => exact Nat.zero_le 1
  | cons x l ih =>
      by_cases hx : p x = true
      · have hnone : l.countP p = 0 := List.countP_eq_zero.mpr (h [] x l rfl hx)
        rw [List.countP_cons_of_pos hx, hnone]
      · rw [List.countP_cons_of_neg hx]
        apply ih
        intro m₁ y m₂ hl
        exact h (x :: m₁) y m₂ (by rw [hl, List.cons_append])

/-- The state in which a timer is added, and the node it gets. -/
theorem split_addTimer {start : Nat} {before rest : List TimerStep} {clock delay : Nat}
    {repeats : Bool}
    (h : Admissible step Legal (init start) (before ++ .addTimer clock delay repeats :: rest)) :
    let w := run step (init start) before
    Keeps w.nextId (· = w.newNode clock delay repeats) (w.step (.addTimer clock delay repeats))
      ∧ Waiting (w.newNode clock delay repeats) (w.step (.addTimer clock delay repeats))
      ∧ (w.newNode clock delay repeats).expireMs = clock + delay
      ∧ Admissible step Legal (w.step (.addTimer clock delay repeats)) rest := by
  intro w
  obtain ⟨hbefore, hadd, hrest⟩ := admissible_append.mp h
  have hinv : w.Inv := run_inv hbefore
  refine ⟨keeps_addTimer hinv hadd, ?_, Nat.mod_eq_of_lt hadd.2.2.1, hrest⟩
  exact ⟨step_inv hinv hadd, List.mem_cons_self, Finset.mem_insert_self _ _⟩

theorem Keeps.mono {id : Nat} {P Q : TimerNode → Prop} (hPQ : ∀ node, P node → Q node)
    {w : TimerWheel} (h : Keeps id P w) : Keeps id Q w :=
  ⟨h.1, h.2.1, fun node hnode hid => hPQ node (h.2.2 node hnode hid)⟩

/-! ## One lemma for each part -/

theorem oneShotRuns {start : Nat} {trace : List TimerStep}
    (h : Admissible step Legal (init start) trace) : OneShotRuns start trace := by
  rintro before clock delay rest rfl
  intro id
  obtain ⟨hkeep, hwait, hexpire, hrest⟩ := split_addTimer h
  set w := run step (init start) before
  set node := w.newNode clock delay false
  have hstays : ∀ now (n : TimerNode), n = node → n.repeats = true → renewed now n = node := by
    rintro now n rfl hrep
    exact absurd hrep Bool.false_ne_true
  refine ⟨?_, ?_, ?_⟩
  · apply countP_le_one
    rintro m₁ s m₂ rfl hruns
    obtain ⟨now, n, rfl, hid⟩ := TimerStep.runs_iff.mp hruns
    obtain ⟨hm₁, hlegal, hm₂⟩ := admissible_append.mp hrest
    have hkeep₁ := run_invariant (fun _ _ => keeps_step hstays) hkeep hm₁
    have hspent := spent_of_run (hkeep₁.mono fun n hn => by rw [hn]; rfl) hlegal hid
    exact hm₂.forall_mem (fun v s => @spent_step id v s) (fun v s => @not_runs_of_spent id v s) hspent
  · intro now n hmem hid
    have hall := hrest.forall_mem (Q := fun s => ∀ now n, s = .run now n → n.id = id →
        clock + delay ≤ now) (fun _ _ => keeps_step hstays) ?_ hkeep
    · exact hall _ hmem now n rfl hid
    · rintro v s hv hlegal t other rfl hother
      have hnode : other = node := hv.of_run hlegal hother
      rw [← hexpire, ← hnode]
      exact hlegal.1.2.1.2.2
  · rintro mid now later rfl hdue hcancel hfirst
    rw [List.append_cons] at hrest
    obtain ⟨m₁, m₂, hmid, hbounds⟩ := run_before_endTick hwait hkeep rfl (admissible_append.mp hrest).1
      (by rw [hexpire]; exact hdue) hcancel (fun t ht => by rw [hexpire]; exact hfirst t ht)
    exact ⟨m₁, node, m₂, hmid, rfl, hbounds⟩

theorem cancelStops {start : Nat} {trace : List TimerStep}
    (h : Admissible step Legal (init start) trace) : CancelStops start trace := by
  rintro before clock delay repeats mid rest rfl now node hmem hid
  obtain ⟨hkeep, -, -, hrest⟩ := split_addTimer h
  obtain ⟨hmid, hcancel, hafter⟩ := admissible_append.mp hrest
  have halloc : ∀ (v : TimerWheel) s, v.Inv ∧ v.Allocated (run step (init start) before).nextId →
      v.Legal s → (v.step s).Inv ∧ (v.step s).Allocated (run step (init start) before).nextId :=
    fun v s hv hs => ⟨step_inv hv.1 hs, allocated_step hv.2⟩
  obtain ⟨hinv, hid'⟩ := run_invariant halloc ⟨hkeep.1, hkeep.2.1⟩ hmid
  have hcancelled : Cancelled _ _ := ⟨step_inv hinv hcancel, hid', Finset.notMem_erase _ _⟩
  have hall := hafter.forall_mem (fun v s => @cancelled_step _ v s)
    (fun v s => @not_runs_of_cancelled _ v s) hcancelled
  exact hall _ hmem (TimerStep.runs_iff.mpr ⟨now, node, rfl, hid⟩)

theorem repeatsSpaced {start : Nat} {trace : List TimerStep}
    (h : Admissible step Legal (init start) trace) : RepeatsSpaced start trace := by
  rintro before clock delay rest rfl hpos
  intro id
  obtain ⟨hkeep, hwait, -, hrest⟩ := split_addTimer h
  have hevery : Keeps id (Every delay) _ := hkeep.mono fun n hn => by rw [hn]; exact ⟨rfl, rfl⟩
  constructor
  · rintro m₁ now₁ node₁ m₂ now₂ node₂ m₃ rfl hid₁ hid₂
    obtain ⟨hm₁, hrun₁, hlast⟩ := admissible_append.mp hrest
    obtain ⟨hm₂, hrun₂, -⟩ := admissible_append.mp hlast
    have hkeep₁ := run_invariant (fun _ _ => keeps_step every_renewed) hevery hm₁
    have hspaced := run_invariant (fun _ _ => spaced_step) (spaced_of_run hkeep₁ hrun₁ hid₁) hm₂
    have hfar : now₁ + delay ≤ now₂ :=
      le_trans (hspaced.2.1 node₂ hrun₂.1.2.1.1 hid₂) hrun₂.1.2.1.2.2
    refine ⟨?_, hfar⟩
    -- in the same tick it would be the same time
    by_contra hnone
    have hquiet : ∀ s ∈ m₂, ∀ t, s ≠ .tick t := by
      rintro s hs t rfl
      exact hnone ⟨t, hs⟩
    have hordered := run_invariant (fun _ _ => ordered_step hrun₁.1.2.1.2.2)
      (ordered_of_run hkeep₁.1 hrun₁) (hm₂.and_forall hquiet)
    have hsame := (hordered.of_run hrun₂).1
    omega
  · rintro mid later rfl hcancel
    rw [run_append, run_cons]
    have hquiet : ∀ s ∈ mid, s ≠ .cancel id := by
      rintro s hs rfl
      exact hcancel hs
    have halive : Alive id delay _ :=
      ⟨hevery, hwait.2.2, _, mem_nodes.mpr (.inr hwait.2.1), rfl⟩
    exact run_invariant (fun _ _ => alive_step) halive
      ((admissible_append.mp hrest).1.and_forall hquiet)

theorem tickInOrder {start : Nat} {trace : List TimerStep}
    (h : Admissible step Legal (init start) trace) : TickInOrder trace := by
  rintro before now₁ node₁ mid now₂ node₂ later rfl hquiet
  obtain ⟨hbefore, hrun₁, hrest⟩ := admissible_append.mp h
  obtain ⟨hmid, hrun₂, -⟩ := admissible_append.mp hrest
  have hno : ∀ s ∈ mid, ∀ t, s ≠ .tick t := by
    rintro s hs t rfl
    exact hquiet t hs
  have hordered := run_invariant (fun _ _ => ordered_step hrun₁.1.2.1.2.2)
    (ordered_of_run (run_inv hbefore) hrun₁) (hmid.and_forall hno)
  exact (hordered.of_run hrun₂).2

/-- **The timer contract.** For every sequence of calls and callbacks with a clock that does not go
back, all four parts hold. -/
theorem timer_contract (start : Nat) (trace : List TimerStep)
    (h : Admissible step Legal (init start) trace) :
    OneShotRuns start trace ∧ CancelStops start trace ∧ RepeatsSpaced start trace
      ∧ TickInOrder trace :=
  ⟨oneShotRuns h, cancelStops h, repeatsSpaced h, tickInOrder h⟩

/-- A repeating timer cancels a one-shot timer from its callback; the node that is left in the heap is
dropped in the next tick. -/
theorem timer_contract_sample :
    let rest : List TimerStep :=
      [.returns, .endTick 105, .tick 110, .skip 110 ⟨1, 110, 0, false⟩, .run 110 ⟨2, 110, 5, true⟩,
        .returns, .endTick 110]
    let trace : List TimerStep :=
      .addTimer 100 10 false
        :: ([.addTimer 100 5 true, .tick 105, .run 105 ⟨2, 105, 5, true⟩] ++ .cancel 1 :: rest)
    Admissible step Legal (init 100) trace ∧ ∀ now node, .run now node ∈ rest → node.id ≠ 1 := by
  intro rest trace
  have hok : Admissible step Legal (init 100) trace := by decide
  exact ⟨hok, (timer_contract 100 trace hok).2.1 [] 100 10 false _ rest rfl⟩

end TimerWheel

end LightNet.Core
