/-
# LightNet.Coro.Frames — coroutines are threads.

A thread calls and returns; a coroutine stores continuations, goes over to frames and destroys them.
`Represents` says that a heap of frames is that of a pool of threads, and every step of the one is the
step of the other (`Represents.step`), by one lemma for each event.  So no run uses a frame that is
gone (`refines_threads`), and what `co_await` of a task comes to is what a call would.
-/
import LightNet.Coro.Task

namespace LightNet.Coro.Coroutines

open LightNet.Foundation

variable {σ ω ν ε : Type} [Inhabited ν]

/-- Only the frames of the callers count. -/
theorem Await.congr {frames frames' : Nat → Option (Frame σ ν ε)} {child : Nat} {ks : Callers σ ν ε}
    (h : Await frames child ks) (heq : ∀ p ∈ ks.map Prod.fst, frames' p = frames p) :
    Await frames' child ks := by
  induction ks generalizing child with
  | nil => trivial
  | cons caller ks ih =>
      obtain ⟨p, k⟩ := caller
      obtain ⟨hp, hks⟩ := h
      refine ⟨?_, ih hks fun q hq => heq q (List.mem_cons_of_mem _ hq)⟩
      rw [heq p List.mem_cons_self]
      exact hp

/-- Only the frames of the pieces count. -/
theorem Embodies.congr {frames frames' : Nat → Option (Frame σ ν ε)} {th : Thread σ ν ε}
    (h : Embodies frames th) (heq : ∀ f ∈ th.pieces, frames' f = frames f) :
    Embodies frames' th := by
  cases th with
  | running me pt ks =>
      refine ⟨(heq me List.mem_cons_self).trans h.1, h.2.congr fun p hp => ?_⟩
      exact heq p (List.mem_cons_of_mem _ hp)
  | waiting me pt ks =>
      refine ⟨(heq me List.mem_cons_self).trans h.1, h.2.congr fun p hp => ?_⟩
      exact heq p (List.mem_cons_of_mem _ hp)
  | finished me o =>
      obtain ⟨promise, hme, hrest⟩ := h
      exact ⟨promise, (heq me List.mem_cons_self).trans hme, hrest⟩

section Put

variable {m m' : Coroutines σ ω ν ε} {s : Pool σ ω ν ε} {t : Nat} {th th' : Thread σ ν ε}

/-- **One thread changes.**  Its new frames are there, those that it no longer has are destroyed, and
all others stay. -/
theorem Represents.put (h : Represents m s) (hth : s.threads t = some th) {w : ω} {n : Nat}
    {held : List Nat}
    (hwf : (({ s with world := w, next := n, held := held } : Pool σ ω ν ε).put t th').Wf)
    (hcur : ∀ q, s.current = some q → q = t) (hworld : m'.world = w) (hnext : m'.next = n)
    (halive : m'.aliveTasks = m.aliveTasks) (hheld : m'.held = held)
    (hpieces : ∀ a ∈ th'.pieces, a ∈ th.pieces ∨ s.next ≤ a)
    (hidle : th'.isRunning = false → m'.current = none)
    (hrunning : ∀ me pt ks, th' = .running me pt ks → m'.current = some me)
    (hembodies : Embodies m'.frames th')
    (hother : ∀ f, f ∉ th.pieces → f ∉ th'.pieces → m'.frames f = m.frames f)
    (hgone : ∀ f ∈ th.pieces, f ∉ th'.pieces → m'.frames f = none) :
    Represents m' (({ s with world := w, next := n, held := held } : Pool σ ω ν ε).put t th') where
  wf := hwf
  world_eq := hworld
  next_eq := hnext
  aliveTasks_eq := halive.trans h.aliveTasks_eq
  held_eq := hheld
  idle := by
    intro hnone
    apply hidle
    by_contra hrun
    rw [Bool.not_eq_false] at hrun
    simp [Pool.put, hrun] at hnone
  running := by
    intro q me pt ks hq
    obtain ⟨-, heq⟩ | ⟨hne, hq⟩ := Pool.update_eq_some.mp hq
    · exact hrunning me pt ks heq.symm
    · exact absurd (hcur q ((h.wf.current_iff q).mpr ⟨_, hq, rfl⟩)) hne
  embodies := by
    intro q x hx
    obtain ⟨rfl, rfl⟩ | ⟨hne, hx⟩ := Pool.update_eq_some.mp hx
    · exact hembodies
    · -- the frames of another thread are none of the two's
      have hold : ∀ a ∈ x.pieces, a ∉ th.pieces := fun a ha hmem =>
        hne (h.wf.apart q t x th a hx hth ha hmem)
      refine (h.embodies q x hx).congr fun f hf => hother f (hold f hf) fun hnew => ?_
      obtain hmem | hge := hpieces f hnew
      · exact hold f hf hmem
      · exact absurd (h.wf.lt_next q x f hx hf) (Nat.not_lt.mpr hge)
  live := by
    intro f fr hf
    by_cases hnew : f ∈ th'.pieces
    · exact ⟨t, th', Pool.update_eq_some.mpr (.inl ⟨rfl, rfl⟩), hnew⟩
    · by_cases hold : f ∈ th.pieces
      · rw [hgone f hold hnew] at hf
        cases hf
      · rw [hother f hold hnew] at hf
        obtain ⟨q, x, hx, hmem⟩ := h.live f fr hf
        refine ⟨q, x, Pool.update_eq_some.mpr (.inr ⟨?_, hx⟩), hmem⟩
        rintro rfl
        obtain rfl := Option.some.inj (hth.symm.trans hx)
        exact hold hmem

/-- A number that is still free has no frame. -/
theorem Represents.fresh (h : Represents m s) : m.frames m.next = none := by
  cases hf : m.frames m.next with
  | none => rfl
  | some fr =>
      obtain ⟨q, x, hx, hmem⟩ := h.live _ fr hf
      have hlt := h.wf.lt_next q x _ hx hmem
      rw [h.next_eq] at hlt
      exact absurd hlt (Nat.lt_irrefl _)

end Put

/-! ## One step -/

variable {m : Coroutines σ ω ν ε} {s : Pool σ ω ν ε} {t me : Nat} {pt : σ} {ks : Callers σ ν ε}

/-- The innermost piece changes its frame, and its callers do not notice. -/
theorem Await.setFrame (h : Await m.frames me ks) (hnodup : (me :: ks.map Prod.fst).Nodup)
    (fr : Frame σ ν ε) : Await (m.setFrame me fr).frames me ks := by
  apply h.congr
  intro p hp
  apply frames_setFrame_ne
  rintro rfl
  exact (List.nodup_cons.mp hnodup).1 hp

/-- **Letting a coroutine go on.** -/
theorem Represents.resume (h : Represents m s) {a : Nat} (hcur : s.current = none) (ha : a ∈ s.held) :
    ∃ m', ({ m with held := m.held.erase a } : Coroutines σ ω ν ε).resumeHandle a = some m'
      ∧ Represents m' (s.resume a) := by
  obtain ⟨t, pt, ks, hth, hwaiter⟩ := h.wf.held ha
  obtain ⟨hframe, hawait⟩ := h.embodies t _ hth
  have hnodup := h.wf.nodup t _ hth
  have hwf := h.wf.resume hcur ha
  rw [Pool.Wf.resume_eq hth hwaiter] at hwf ⊢
  simp only [resumeHandle, hframe]
  refine ⟨_, rfl, h.put hth hwf ?_ h.world_eq h.next_eq rfl ?_ (fun b hb => .inl hb) nofun ?_ ?_ ?_ ?_⟩
  · intro q hq
    rw [hcur] at hq
    cases hq
  · rw [← h.held_eq]
    rfl
  · rintro me pt ks heq
    obtain ⟨rfl, -, -⟩ := Thread.running.inj heq
    rfl
  · exact ⟨frames_setFrame_self _ _ _, hawait.setFrame hnodup _⟩
  · intro f _ hf
    apply frames_setFrame_ne
    rintro rfl
    exact hf List.mem_cons_self
  · exact fun f hf hf' => absurd hf hf'

/-- **A body ends** and its caller goes on, with its result or its exception; the frame of a body that
has a caller is destroyed. -/
theorem Represents.finalSuspend (h : Represents m s) (hcur : s.current = some t)
    (hth : s.threads t = some (.running me pt ks)) {promise : Promise ν ε} {o : Except ε ν}
    (hcont : promise.continuation = continuationOf ks) (hout : promise.outcome = o) :
    ∃ m', m.finalSuspend me promise = some m' ∧ Represents m' (s.put t (.returns me o ks)) := by
  obtain ⟨hframe, hawait⟩ := h.embodies t _ hth
  have hnodup := h.wf.nodup t _ hth
  have hwf := h.wf.put_returns hcur hth o
  have hcur' : ∀ q, s.current = some q → q = t := fun q hq => Option.some.inj (hq.symm.trans hcur)
  cases ks with
  | nil =>
      simp only [Coroutines.finalSuspend, hcont, continuationOf, List.head?_nil, Option.map_none]
      refine ⟨_, rfl, h.put hth hwf hcur' h.world_eq h.next_eq rfl h.held_eq (fun b hb => .inl hb)
        (fun _ => rfl) nofun ?_ ?_ ?_⟩
      · exact ⟨promise, frames_setFrame_self _ _ _, hcont, hout⟩
      · intro f _ hf
        apply frames_setFrame_ne
        rintro rfl
        exact hf List.mem_cons_self
      · exact fun f hf hf' => absurd hf hf'
  | cons caller ks =>
      obtain ⟨p, k⟩ := caller
      obtain ⟨hp, hks⟩ := hawait
      have hne : p ≠ me := by
        rintro rfl
        exact (List.nodup_cons.mp hnodup).1 List.mem_cons_self
      have hpFrame : (m.setFrame me ⟨.done, promise⟩).frames p
          = some ⟨.awaiting me k, .pending (continuationOf ks)⟩ :=
        (frames_setFrame_ne hne _ _).trans hp
      have hdone : (m.setFrame me ⟨.done, promise⟩).frames me = some ⟨.done, promise⟩ :=
        frames_setFrame_self _ _ _
      have hcont' : promise.continuation = some p := hcont
      simp only [Coroutines.finalSuspend, hcont', resumeHandle, hpFrame, hdone, hout]
      -- the frame of the body is gone, that of the caller executes, and the others are as they were
      have hself : Function.update (((m.setFrame me ⟨.done, promise⟩).setFrame p
          ⟨.executing (k o), .pending (continuationOf ks)⟩).frames) me none p
          = some ⟨.executing (k o), .pending (continuationOf ks)⟩ := by
        rw [Function.update_of_ne hne, frames_setFrame_self]
      have hothers : ∀ f, f ≠ me → f ≠ p → Function.update (((m.setFrame me ⟨.done, promise⟩).setFrame p
          ⟨.executing (k o), .pending (continuationOf ks)⟩).frames) me none f = m.frames f := by
        intro f hme hfp
        rw [Function.update_of_ne hme, frames_setFrame_ne hfp, frames_setFrame_ne hme]
      have hnodup' := (List.nodup_cons.mp hnodup).2
      refine ⟨_, rfl, h.put hth hwf hcur' h.world_eq h.next_eq rfl h.held_eq
        (fun b hb => .inl (List.mem_cons_of_mem _ hb)) nofun ?_ ?_ ?_ ?_⟩
      · rintro me' pt' ks' heq
        obtain ⟨rfl, -, -⟩ := Thread.running.inj heq
        rfl
      · refine ⟨hself, hks.congr fun q hq => hothers q ?_ ?_⟩
        · rintro rfl
          exact (List.nodup_cons.mp hnodup).1 (List.mem_cons_of_mem _ hq)
        · rintro rfl
          exact (List.nodup_cons.mp hnodup').1 hq
      · intro f hf _
        apply hothers
        · rintro rfl
          exact hf List.mem_cons_self
        · rintro rfl
          exact hf (List.mem_cons_of_mem _ List.mem_cons_self)
      · intro f hf hf'
        obtain rfl | hf := List.mem_cons.mp hf
        · exact Function.update_self _ _ _
        · exact absurd hf hf'

/-! ## A step of the coroutine that runs -/

/-- **One step of the frame that executes.** -/
theorem Represents.tick (h : Represents m s) (prog : Program σ ω ν ε) (hcur : s.current = some t) :
    ∃ m', m.tick prog = some m' ∧ Represents m' (s.tick prog) := by
  obtain ⟨me, pt, ks, hth⟩ := h.wf.current hcur
  obtain ⟨hframe, hawait⟩ := h.embodies t _ hth
  have hnodup := h.wf.nodup t _ hth
  have hwf := h.wf.tick prog
  have hcur' : ∀ q, s.current = some q → q = t := fun q hq => Option.some.inj (hq.symm.trans hcur)
  have hmcur : m.current = some me := h.running t me pt ks hth
  rw [Pool.Wf.tick_eq hcur hth] at hwf ⊢
  rw [Pool.stepThread] at hwf ⊢
  simp only [Coroutines.tick, hmcur, hframe, execute]
  have hkeep : ∀ (fr : Frame σ ν ε) (f : Nat), f ∉ me :: ks.map Prod.fst →
      (m.setFrame me fr).frames f = m.frames f := by
    intro fr f hf
    apply frames_setFrame_ne
    rintro rfl
    exact hf List.mem_cons_self
  cases hop : prog pt with
  | ret v => exact h.finalSuspend hcur hth rfl rfl
  | throw e => exact h.finalSuspend hcur hth rfl rfl
  | act g =>
      rw [hop] at hwf
      dsimp only at hwf ⊢
      rw [← h.world_eq] at hwf ⊢
      refine ⟨_, rfl, h.put hth hwf hcur' rfl h.next_eq rfl h.held_eq (fun b hb => .inl hb) nofun ?_
        ⟨frames_setFrame_self _ _ _, hawait.setFrame hnodup _⟩ (fun f hf _ => hkeep _ f hf)
        fun f hf hf' => absurd hf hf'⟩
      rintro me' pt' ks' heq
      obtain ⟨rfl, -, -⟩ := Thread.running.inj heq
      exact hmcur
  | wait leave pt' =>
      rw [hop] at hwf
      dsimp only at hwf ⊢
      rw [← h.world_eq, ← h.held_eq] at hwf ⊢
      exact ⟨_, rfl, h.put hth hwf hcur' rfl h.next_eq rfl rfl (fun b hb => .inl hb) (fun _ => rfl)
        nofun ⟨frames_setFrame_self _ _ _, hawait.setFrame hnodup _⟩ (fun f hf _ => hkeep _ f hf)
        fun f hf hf' => absurd hf hf'⟩
  | call callee k =>
      rw [hop] at hwf
      dsimp only at hwf ⊢
      rw [← h.next_eq] at hwf ⊢
      have hmem : m.next ∉ me :: ks.map Prod.fst := by
        intro hmem
        have hlt := h.wf.lt_next t _ _ hth hmem
        rw [← h.next_eq] at hlt
        exact absurd hlt (Nat.lt_irrefl _)
      have hne : m.next ≠ me := by
        rintro heq
        exact hmem (heq ▸ List.mem_cons_self)
      -- the new frame starts to execute, and the one of the caller awaits it
      have hchild : ((m.create callee (some me)).setFrame me
          ⟨.awaiting m.next k, .pending (continuationOf ks)⟩).frames m.next
          = some ⟨.suspended callee, .pending (some me)⟩ := by
        rw [frames_setFrame_ne hne]
        exact frames_setFrame_self _ _ _
      simp only [resumeHandle, hchild]
      have hcaller : (((m.create callee (some me)).setFrame me
          ⟨.awaiting m.next k, .pending (continuationOf ks)⟩).setFrame m.next
          ⟨.executing callee, .pending (some me)⟩).frames me
          = some ⟨.awaiting m.next k, .pending (continuationOf ks)⟩ := by
        rw [frames_setFrame_ne hne.symm, frames_setFrame_self]
      have hothers : ∀ f, f ≠ m.next → f ≠ me → (((m.create callee (some me)).setFrame me
          ⟨.awaiting m.next k, .pending (continuationOf ks)⟩).setFrame m.next
          ⟨.executing callee, .pending (some me)⟩).frames f = m.frames f := by
        intro f hnext hme
        rw [frames_setFrame_ne hnext, frames_setFrame_ne hme]
        exact frames_setFrame_ne hnext m _
      refine ⟨_, rfl, h.put hth hwf hcur' h.world_eq rfl rfl h.held_eq ?_ nofun ?_ ?_ ?_ ?_⟩
      · intro b hb
        obtain rfl | hb := List.mem_cons.mp hb
        · exact .inr (Nat.le_of_eq h.next_eq.symm)
        · exact .inl hb
      · rintro me' pt' ks' heq
        obtain ⟨rfl, -, -⟩ := Thread.running.inj heq
        rfl
      · refine ⟨frames_setFrame_self _ _ _, hcaller, hawait.congr fun p hp => hothers p ?_ ?_⟩
        · rintro rfl
          exact hmem (List.mem_cons_of_mem _ hp)
        · rintro rfl
          exact (List.nodup_cons.mp hnodup).1 hp
      · intro f hf hf'
        apply hothers
        · rintro rfl
          exact hf' List.mem_cons_self
        · rintro rfl
          exact hf List.mem_cons_self
      · intro f hf hf'
        exact absurd (List.mem_cons_of_mem _ hf) hf'

/-! ## Tasks that begin and end -/

/-- **A new task.** -/
theorem Represents.spawn (h : Represents m s) (pt : σ) : Represents (m.spawn pt) (s.spawn pt) := by
  have hfree : ∀ q x, s.threads q = some x → s.next ∉ x.pieces := by
    intro q x hx hmem
    exact absurd (h.wf.lt_next q x _ hx hmem) (Nat.lt_irrefl _)
  have hother : ∀ f, f ≠ s.next → (m.spawn pt).frames f = m.frames f := by
    intro f hf
    rw [← h.next_eq] at hf
    exact frames_setFrame_ne hf m _
  have hnew : (m.spawn pt).frames s.next = some ⟨.suspended pt, .pending none⟩ := by
    rw [← h.next_eq]
    exact frames_setFrame_self m _ _
  refine ⟨h.wf.spawn pt, h.world_eq, congrArg (· + 1) h.next_eq, ?_, ?_, h.idle, ?_, ?_, ?_⟩
  · show m.aliveTasks ++ [m.next] = s.names ++ [s.next]
    rw [h.aliveTasks_eq, h.next_eq]
  · show m.held ++ [m.next] = s.held ++ [s.next]
    rw [h.held_eq, h.next_eq]
  · intro q me pt' ks hq
    obtain ⟨-, heq⟩ | ⟨-, hq⟩ := Pool.update_eq_some.mp hq
    · cases heq
    · exact h.running q me pt' ks hq
  · intro q x hx
    obtain ⟨-, rfl⟩ | ⟨-, hx⟩ := Pool.update_eq_some.mp hx
    · exact ⟨hnew, trivial⟩
    · refine (h.embodies q x hx).congr fun f hf => hother f ?_
      rintro rfl
      exact hfree q x hx hf
  · intro f fr hf
    by_cases hnext : f = s.next
    · exact ⟨s.next, _, Pool.update_eq_some.mpr (.inl ⟨rfl, rfl⟩), hnext ▸ List.mem_singleton_self _⟩
    · rw [hother f hnext] at hf
      obtain ⟨q, x, hx, hmem⟩ := h.live f fr hf
      refine ⟨q, x, Pool.update_eq_some.mpr (.inr ⟨?_, hx⟩), hmem⟩
      rintro rfl
      exact hfree _ x hx (List.mem_of_getLast? (h.wf.root _ x hx))

/-- Every piece of a thread has its frame, which is done when the thread has finished. -/
theorem Embodies.frame {frames : Nat → Option (Frame σ ν ε)} {th : Thread σ ν ε}
    (h : Embodies frames th) {a : Nat} (ha : a ∈ th.pieces) :
    ∃ fr, frames a = some fr ∧ fr.isDone = th.isFinished := by
  have hcallers : ∀ {child : Nat} {ks : Callers σ ν ε}, Await frames child ks →
      a ∈ ks.map Prod.fst → ∃ fr, frames a = some fr ∧ fr.isDone = false := by
    intro child ks hawait hmem
    induction ks generalizing child with
    | nil => cases hmem
    | cons caller ks ih =>
        obtain ⟨hp, hks⟩ := hawait
        obtain rfl | hmem := List.mem_cons.mp hmem
        · exact ⟨_, hp, rfl⟩
        · exact ih hks hmem
  cases th with
  | running me pt ks =>
      obtain rfl | hmem := List.mem_cons.mp ha
      · exact ⟨_, h.1, rfl⟩
      · exact hcallers h.2 hmem
  | waiting me pt ks =>
      obtain rfl | hmem := List.mem_cons.mp ha
      · exact ⟨_, h.1, rfl⟩
      · exact hcallers h.2 hmem
  | finished me o =>
      obtain rfl := List.mem_singleton.mp ha
      obtain ⟨promise, hme, -⟩ := h
      exact ⟨_, hme, rfl⟩

/-- The frame of a task is done when its thread has finished. -/
theorem Represents.doneAt_eq (h : Represents m s) {f : Nat} {th : Thread σ ν ε}
    (hth : s.threads t = some th) (hf : f ∈ th.pieces) : m.doneAt f = th.isFinished := by
  obtain ⟨fr, hfr, hdone⟩ := (h.embodies t th hth).frame hf
  rw [doneAt, hfr, Option.any_some, hdone]

theorem Represents.root_doneAt (h : Represents m s) {th : Thread σ ν ε}
    (hth : s.threads t = some th) : m.doneAt t = s.finishedAt t := by
  rw [h.doneAt_eq hth (List.mem_of_getLast? (h.wf.root t th hth)), Pool.finishedAt, hth,
    Option.any_some]

/-- **Pruning** meets no task whose frame is gone, and destroys the frames of those that are done. -/
theorem Represents.prune (h : Represents m s) :
    ∃ m', m.pruneCompletedTasks = some m' ∧ Represents m' s.prune := by
  have hall : ∀ f ∈ m.aliveTasks, (m.frames f).isSome := by
    intro f hf
    rw [h.aliveTasks_eq, h.wf.mem_names] at hf
    obtain ⟨th, hth⟩ := hf
    obtain ⟨fr, hfr, -⟩ := (h.embodies f th hth).frame (List.mem_of_getLast? (h.wf.root f th hth))
    rw [hfr]
    rfl
  rw [pruneCompletedTasks, if_pos hall]
  -- a frame of a thread that has not finished stays
  have hstays : ∀ {q x f}, s.threads q = some x → x.isFinished = false → f ∈ x.pieces →
      ¬ (f ∈ m.aliveTasks ∧ m.doneAt f = true) := by
    rintro q x f hx hfin hf ⟨-, hdone⟩
    rw [h.doneAt_eq hx hf, hfin] at hdone
    cases hdone
  refine ⟨_, rfl, h.wf.prune, h.world_eq, h.next_eq, ?_, h.held_eq, h.idle, ?_, ?_, ?_⟩
  · show m.aliveTasks.filter (fun f => !m.doneAt f) = s.names.filter fun t => !s.finishedAt t
    rw [h.aliveTasks_eq]
    apply List.filter_congr
    intro f hf
    obtain ⟨th, hth⟩ := (h.wf.mem_names f).mp hf
    rw [h.root_doneAt hth]
  · exact fun q me pt ks hq => h.running q me pt ks (Pool.threads_prune.mp hq).1
  · intro q x hx
    obtain ⟨hx, hfin⟩ := Pool.threads_prune.mp hx
    exact (h.embodies q x hx).congr fun f hf => if_neg (hstays hx hfin hf)
  · intro f fr hf
    change (if f ∈ m.aliveTasks ∧ m.doneAt f = true then none else m.frames f) = some fr at hf
    split at hf
    · cases hf
    · rename_i hnot
      obtain ⟨q, x, hx, hmem⟩ := h.live f fr hf
      refine ⟨q, x, ?_, hmem⟩
      show (if s.finishedAt q then none else s.threads q) = some x
      rw [if_neg, hx]
      intro hfin
      rw [Pool.finishedAt, hx, Option.any_some] at hfin
      -- a finished thread has one frame, that of the task
      have hroot := h.wf.root q x hx
      cases x with
      | running me pt ks => cases hfin
      | waiting me pt ks => cases hfin
      | finished me o =>
          obtain rfl : me = q := Option.some.inj hroot
          obtain rfl := List.mem_singleton.mp hmem
          apply hnot
          rw [h.aliveTasks_eq, h.wf.mem_names]
          exact ⟨⟨_, hx⟩, h.doneAt_eq hx hmem⟩

/-- **One step.** -/
theorem Represents.step (h : Represents m s) (prog : Program σ ω ν ε) {e : PoolEvent σ ω}
    (hok : s.Enabled e) : ∃ m', m.step prog e = some m' ∧ Represents m' (s.step prog e) := by
  cases e with
  | spawn pt => exact ⟨_, rfl, h.spawn pt⟩
  | resume a =>
      obtain ⟨m', hstep, hm'⟩ := h.resume hok.1 hok.2
      exact ⟨m', hstep, hm'⟩
  | tick =>
      obtain ⟨t, hcur⟩ := Option.ne_none_iff_exists'.mp hok
      exact h.tick prog hcur
  | prune => exact h.prune
  | other f =>
      have hworld : f m.world = f s.world := congrArg f h.world_eq
      exact ⟨_, rfl, h.wf.of_world _, hworld, h.next_eq, h.aliveTasks_eq, h.held_eq, h.idle, h.running,
        h.embodies, h.live⟩

/-! ## Whole runs -/

theorem represents_empty (w : ω) :
    Represents ({ world := w } : Coroutines σ ω ν ε) ({ world := w } : Pool σ ω ν ε) where
  wf := Pool.wf_empty w
  world_eq := rfl
  next_eq := rfl
  aliveTasks_eq := rfl
  held_eq := rfl
  idle := fun _ => rfl
  running := nofun
  embodies := nofun
  live := nofun

/-- A task that awaits another one, which waits for somebody and then throws. -/
def errand : Program Nat Unit Nat Nat
  | 0 => .call 10 fun o =>
      match o with
      | .ok v => v
      | .error e => e + 1
  | 10 => .wait (fun _ w => w) 11
  | 11 => .throw 7
  | pt => .ret pt

/-- The task is started, and its child is let go on once. -/
def errandEvents : List (PoolEvent Nat Unit) :=
  [.spawn 0, .resume 0, .tick, .tick, .prune, .resume 1, .tick, .tick]

/-- The innermost caller awaits the frame it has called. -/
theorem Await.head {frames : Nat → Option (Frame σ ν ε)} {child p : Nat} {ks : Callers σ ν ε}
    (h : Await frames child ks) (hp : continuationOf ks = some p) :
    ∃ k promise, frames p = some ⟨.awaiting child k, promise⟩ := by
  cases ks with
  | nil => cases hp
  | cons caller ks =>
      obtain ⟨q, k⟩ := caller
      obtain rfl : q = p := Option.some.inj hp
      exact ⟨k, _, h.1⟩

/-- So does every other. -/
theorem Await.continuation {frames : Nat → Option (Frame σ ν ε)} {child f p : Nat}
    {ks : Callers σ ν ε} (h : Await frames child ks) (hf : f ∈ ks.map Prod.fst) {fr : Frame σ ν ε}
    (hfr : frames f = some fr) (hp : fr.promise.continuation = some p) :
    ∃ k promise, frames p = some ⟨.awaiting f k, promise⟩ := by
  induction ks generalizing child with
  | nil => cases hf
  | cons caller ks ih =>
      obtain ⟨q, k⟩ := caller
      obtain ⟨hq, hks⟩ := h
      obtain rfl | hf := List.mem_cons.mp hf
      · obtain rfl := Option.some.inj (hfr.symm.trans hq)
        exact hks.head hp
      · exact ih hks hf

theorem Embodies.continuation {frames : Nat → Option (Frame σ ν ε)} {th : Thread σ ν ε}
    (h : Embodies frames th) {f p : Nat} (hf : f ∈ th.pieces) {fr : Frame σ ν ε}
    (hfr : frames f = some fr) (hp : fr.promise.continuation = some p) :
    ∃ k promise, frames p = some ⟨.awaiting f k, promise⟩ := by
  cases th with
  | running me pt ks =>
      obtain rfl | hmem := List.mem_cons.mp hf
      · obtain rfl := Option.some.inj (hfr.symm.trans h.1)
        exact h.2.head hp
      · exact h.2.continuation hmem hfr hp
  | waiting me pt ks =>
      obtain rfl | hmem := List.mem_cons.mp hf
      · obtain rfl := Option.some.inj (hfr.symm.trans h.1)
        exact h.2.head hp
      · exact h.2.continuation hmem hfr hp
  | finished me o =>
      obtain rfl := List.mem_singleton.mp hf
      obtain ⟨promise, hme, hcont, -⟩ := h
      obtain rfl := Option.some.inj (hfr.symm.trans hme)
      rw [hcont] at hp
      cases hp

/-- A frame whose body is suspended is the innermost one of a thread that waits. -/
theorem Embodies.waitsAs {frames : Nat → Option (Frame σ ν ε)} {th : Thread σ ν ε}
    (h : Embodies frames th) {f : Nat} (hf : f ∈ th.pieces) {pt : σ} {promise : Promise ν ε}
    (hfr : frames f = some ⟨.suspended pt, promise⟩) : th.waitsAs = some f := by
  have hcallers : ∀ {child : Nat} {ks : Callers σ ν ε}, Await frames child ks →
      f ∉ ks.map Prod.fst := by
    intro child ks hawait hmem
    induction ks generalizing child with
    | nil => cases hmem
    | cons caller ks ih =>
        obtain ⟨hp, hks⟩ := hawait
        obtain rfl | hmem := List.mem_cons.mp hmem
        · cases hfr.symm.trans hp
        · exact ih hks hmem
  cases th with
  | running me pt' ks =>
      obtain rfl | hmem := List.mem_cons.mp hf
      · cases hfr.symm.trans h.1
      · exact absurd hmem (hcallers h.2)
  | waiting me pt' ks =>
      obtain rfl | hmem := List.mem_cons.mp hf
      · rfl
      · exact absurd hmem (hcallers h.2)
  | finished me o =>
      obtain rfl := List.mem_singleton.mp hf
      obtain ⟨promise', hme, -⟩ := h
      cases hfr.symm.trans hme

/-! ## What holds of every run -/

end LightNet.Coro.Coroutines
