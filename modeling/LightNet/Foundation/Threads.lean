/-
# LightNet.Foundation.Threads — programs that call one another, and the threads that run them.

A `Program` says what its code does at each point: end, throw, work on the world that all threads
share, wait for somebody who will let it go on, or call another piece of the program and go on with
what that comes to.  A `Thread` is such a piece at work, with those that have called it; an exception
goes to the caller, like a result, and what the caller makes of it is its own business.

A `Pool` is any number of threads of which at most one runs, until it waits.  Each piece at work has a
number of its own, and whoever lets a thread go on knows it by the number of the piece that waits.
`Wf` is what holds of every pool that a run leads to: the numbers are all different, nobody runs but
the current thread, and every thread that waits is known to somebody.  One lemma for each event says
that it stays so.
-/
import LightNet.Foundation.Run
import Mathlib.Data.List.Nodup
import Mathlib.Logic.Function.Basic

namespace LightNet.Foundation

variable {σ ω ν ε : Type}

/-! ## Threads -/

/-- What the code at one point of a program does.  `σ` are the points, with the locals of the code, and
`ω` is the world. -/
inductive Op (σ ω ν ε : Type) where
  | ret (v : ν)
  | throw (e : ε)
  /-- Work on the world, up to the next point. -/
  | act (f : ω → σ × ω)
  /-- Leave the own number with somebody, and go on at `pt` when let. -/
  | wait (leave : Nat → ω → ω) (pt : σ)
  | call (callee : σ) (k : Except ε ν → σ)

/-- What is done at each point of a program. -/
abbrev Program (σ ω ν ε : Type) := σ → Op σ ω ν ε

/-- Those that wait in a call, the innermost first: their numbers, and where they go on. -/
abbrev Callers (σ ν ε : Type) := List (Nat × (Except ε ν → σ))

/-- A thread, seen from the piece `me` that is at work in it. -/
inductive Thread (σ ν ε : Type) where
  | running (me : Nat) (pt : σ) (callers : Callers σ ν ε)
  | waiting (me : Nat) (pt : σ) (callers : Callers σ ν ε)
  | finished (me : Nat) (o : Except ε ν)

namespace Thread

/-- The numbers of the pieces at work, the innermost first. -/
def pieces : Thread σ ν ε → List Nat
  | running me _ ks | waiting me _ ks => me :: ks.map Prod.fst
  | finished me _ => [me]

/-- The thread runs. -/
def isRunning : Thread σ ν ε → Bool
  | running _ _ _ => true
  | _ => false

/-- The thread has come to its end. -/
def isFinished : Thread σ ν ε → Bool
  | finished _ _ => true
  | _ => false

/-- The number under which a waiting thread is known. -/
def waitsAs : Thread σ ν ε → Option Nat
  | waiting me _ _ => some me
  | _ => none

/-- The piece `me` has come to `o`. -/
def returns (me : Nat) (o : Except ε ν) : Callers σ ν ε → Thread σ ν ε
  | [] => finished me o
  | (p, k) :: ks => running p (k o) ks

end Thread

/-! ## The pool -/

/-- Threads that share a world.  `names` are the threads there are, in the order of their making, and
`held` the numbers under which somebody knows a waiting thread. -/
structure Pool (σ ω ν ε : Type) where
  world : ω
  threads : Nat → Option (Thread σ ν ε) := fun _ => none
  names : List Nat := []
  next : Nat := 0
  current : Option Nat := none
  held : List Nat := []

/-- What happens to a pool. -/
inductive PoolEvent (σ ω : Type) where
  /-- A thread is made, and somebody is left with its number. -/
  | spawn (pt : σ)
  /-- Somebody lets the thread that waits as `h` go on. -/
  | resume (h : Nat)
  /-- The current thread does what its point says. -/
  | tick
  /-- The finished threads are taken away. -/
  | prune
  /-- Somebody else works on the world. -/
  | other (f : ω → ω)

namespace Pool

/-- The thread `t` is now `th`; it stays the current one while it runs. -/
def put (s : Pool σ ω ν ε) (t : Nat) (th : Thread σ ν ε) : Pool σ ω ν ε :=
  { s with
    threads := Function.update s.threads t (some th)
    current := if th.isRunning then some t else none }

/-- A new thread, which waits at its first point. -/
def spawn (s : Pool σ ω ν ε) (pt : σ) : Pool σ ω ν ε :=
  { s with
    threads := Function.update s.threads s.next (some (.waiting s.next pt []))
    names := s.names ++ [s.next]
    next := s.next + 1
    held := s.held ++ [s.next] }

/-- The thread that waits as `h`. -/
def waiter (s : Pool σ ω ν ε) (h : Nat) : Option Nat :=
  s.names.find? fun t => (s.threads t).bind Thread.waitsAs == some h

/-- The thread goes on that waits under this number. -/
def resume (s : Pool σ ω ν ε) (h : Nat) : Pool σ ω ν ε :=
  match s.waiter h with
  | none => s
  | some t =>
      match s.threads t with
      | some (.waiting me pt ks) => { s with held := s.held.erase h }.put t (.running me pt ks)
      | _ => s

/-- One step of the thread `t`, which runs the piece `me` at `pt`. -/
def stepThread (prog : Program σ ω ν ε) (s : Pool σ ω ν ε) (t me : Nat) (pt : σ)
    (ks : Callers σ ν ε) : Pool σ ω ν ε :=
  match prog pt with
  | .ret v => s.put t (.returns me (.ok v) ks)
  | .throw e => s.put t (.returns me (.error e) ks)
  | .act f => { s with world := (f s.world).2 }.put t (.running me (f s.world).1 ks)
  | .wait leave pt =>
      { s with world := leave me s.world, held := s.held ++ [me] }.put t (.waiting me pt ks)
  | .call callee k => { s with next := s.next + 1 }.put t (.running s.next callee ((me, k) :: ks))

/-- The thread that runs takes a step. -/
def tick (prog : Program σ ω ν ε) (s : Pool σ ω ν ε) : Pool σ ω ν ε :=
  match s.current with
  | none => s
  | some t =>
      match s.threads t with
      | some (.running me pt ks) => s.stepThread prog t me pt ks
      | _ => s

/-- The thread `t` is there and has finished. -/
def finishedAt (s : Pool σ ω ν ε) (t : Nat) : Bool := (s.threads t).any Thread.isFinished

/-- The threads that have finished are dropped. -/
def prune (s : Pool σ ω ν ε) : Pool σ ω ν ε :=
  { s with
    threads := fun t => if s.finishedAt t then none else s.threads t
    names := s.names.filter fun t => !s.finishedAt t }

/-- What the event does. -/
def step (prog : Program σ ω ν ε) (s : Pool σ ω ν ε) : PoolEvent σ ω → Pool σ ω ν ε
  | .spawn pt => s.spawn pt
  | .resume h => s.resume h
  | .tick => s.tick prog
  | .prune => s.prune
  | .other f => { s with world := f s.world }

/-- One thread runs at a time, and a thread is let go on by somebody who has been left with its
number, once. -/
def Enabled (s : Pool σ ω ν ε) : PoolEvent σ ω → Prop
  | .spawn _ | .prune => s.current = none
  | .resume h => s.current = none ∧ h ∈ s.held
  | .tick => s.current ≠ none
  | .other _ => True

instance (s : Pool σ ω ν ε) : (e : PoolEvent σ ω) → Decidable (s.Enabled e)
  | .spawn _ | .prune => inferInstanceAs (Decidable (_ = _))
  | .resume _ => inferInstanceAs (Decidable (_ ∧ _))
  | .tick => inferInstanceAs (Decidable (_ ≠ _))
  | .other _ => isTrue trivial

/-! ## What holds of every pool -/

/-- Numbers are used once; one thread runs at most; who waits is known to somebody. -/
structure Wf (s : Pool σ ω ν ε) : Prop where
  names_nodup : s.names.Nodup
  mem_names : ∀ t, t ∈ s.names ↔ ∃ th, s.threads t = some th
  /-- The outermost piece of a thread has the number of the thread. -/
  root : ∀ t th, s.threads t = some th → th.pieces.getLast? = some t
  nodup : ∀ t th, s.threads t = some th → th.pieces.Nodup
  apart : ∀ t t' th th' a, s.threads t = some th → s.threads t' = some th' →
    a ∈ th.pieces → a ∈ th'.pieces → t = t'
  lt_next : ∀ t th a, s.threads t = some th → a ∈ th.pieces → a < s.next
  current_iff : ∀ t, s.current = some t ↔ ∃ th, s.threads t = some th ∧ th.isRunning = true
  held_nodup : s.held.Nodup
  /-- Every thread that waits is known to somebody, and nobody knows another. -/
  held_iff : ∀ h, h ∈ s.held ↔ ∃ t th, s.threads t = some th ∧ th.waitsAs = some h

theorem update_eq_some {α : Type*} {f : Nat → Option α} {t q : Nat} {x y : α} :
    Function.update f t (some x) q = some y ↔ q = t ∧ y = x ∨ q ≠ t ∧ f q = some y := by
  by_cases hq : q = t
  · subst hq
    rw [Function.update_self]
    simp [eq_comm]
  · rw [Function.update_of_ne hq]
    simp [hq]

/-- The threads that are left have not finished. -/
theorem threads_prune {s : Pool σ ω ν ε} {q : Nat} {x : Thread σ ν ε} :
    s.prune.threads q = some x ↔ s.threads q = some x ∧ x.isFinished = false := by
  show (if s.finishedAt q then none else s.threads q) = some x ↔ _
  cases hq : s.threads q with
  | none => simp [finishedAt, hq]
  | some y =>
      cases hy : y.isFinished with
      | true =>
          simp only [finishedAt, hq, Option.any_some, hy, if_true]
          constructor
          · exact nofun
          · rintro ⟨hyx, hx⟩
            obtain rfl := Option.some.inj hyx
            rw [hy] at hx
            cases hx
      | false =>
          simp only [finishedAt, hq, Option.any_some, hy, Bool.false_eq_true, if_false]
          constructor
          · intro hyx
            obtain rfl := Option.some.inj hyx
            exact ⟨rfl, hy⟩
          · exact And.left

namespace Wf

variable {s s' : Pool σ ω ν ε} {t : Nat} {th th' : Thread σ ν ε}

theorem mem_pieces_of_waitsAs {a : Nat} (h : th.waitsAs = some a) : a ∈ th.pieces := by
  cases th with
  | running me pt ks => cases h
  | finished me o => cases h
  | waiting me pt ks =>
      obtain rfl := Option.some.inj h
      exact List.mem_cons_self

/-! ## One thread takes another state -/

/-- **One thread changes.**  What is asked of the new thread: its pieces are those of the old one or
new, and it is known as what it waits as. -/
theorem put (h : s.Wf) (hth : s.threads t = some th)
    (hthreads : s'.threads = Function.update s.threads t (some th')) (hnames : s'.names = s.names)
    (hcurrent : s'.current = if th'.isRunning then some t else none)
    (hcur : ∀ q, s.current = some q → q = t) (hroot : th'.pieces.getLast? = some t)
    (hnodup : th'.pieces.Nodup) (hnext : s.next ≤ s'.next)
    (hpieces : ∀ a ∈ th'.pieces, a ∈ th.pieces ∨ s.next ≤ a ∧ a < s'.next)
    (hheldNodup : s'.held.Nodup)
    (hheld : ∀ a, a ∈ s'.held ↔ th'.waitsAs = some a ∨ a ∈ s.held ∧ th.waitsAs ≠ some a) :
    s'.Wf where
  names_nodup := by
    rw [hnames]
    exact h.names_nodup
  mem_names := by
    intro q
    rw [hnames, h.mem_names, hthreads]
    by_cases hq : q = t
    · subst hq
      simp [hth]
    · rw [Function.update_of_ne hq]
  root := by
    intro q x hx
    rw [hthreads, update_eq_some] at hx
    obtain ⟨rfl, rfl⟩ | ⟨-, hx⟩ := hx
    · exact hroot
    · exact h.root q x hx
  nodup := by
    intro q x hx
    rw [hthreads, update_eq_some] at hx
    obtain ⟨rfl, rfl⟩ | ⟨-, hx⟩ := hx
    · exact hnodup
    · exact h.nodup q x hx
  apart := by
    -- a piece of the new thread is new, or was the old one's already
    have hnew : ∀ q x a, s.threads q = some x → a ∈ x.pieces → a ∈ th'.pieces → q = t := by
      intro q x a hx ha ha'
      obtain hold | ⟨hge, -⟩ := hpieces a ha'
      · exact h.apart q t x th a hx hth ha hold
      · exact absurd (h.lt_next q x a hx ha) (Nat.not_lt.mpr hge)
    intro q q' x x' a hx hx' ha ha'
    rw [hthreads, update_eq_some] at hx hx'
    obtain ⟨hq, rfl⟩ | ⟨-, hx⟩ := hx
    · obtain ⟨hq', -⟩ | ⟨-, hx'⟩ := hx'
      · rw [hq, hq']
      · rw [hq, hnew q' x' a hx' ha' ha]
    · obtain ⟨hq', rfl⟩ | ⟨-, hx'⟩ := hx'
      · rw [hq', hnew q x a hx ha ha']
      · exact h.apart q q' x x' a hx hx' ha ha'
  lt_next := by
    intro q x a hx ha
    rw [hthreads, update_eq_some] at hx
    obtain ⟨-, rfl⟩ | ⟨-, hx⟩ := hx
    · obtain hold | ⟨-, hlt⟩ := hpieces a ha
      · exact Nat.lt_of_lt_of_le (h.lt_next t th a hth hold) hnext
      · exact hlt
    · exact Nat.lt_of_lt_of_le (h.lt_next q x a hx ha) hnext
  current_iff := by
    intro q
    rw [hcurrent, hthreads]
    constructor
    · intro hq
      split at hq
      · rename_i hrun
        obtain rfl := Option.some.inj hq
        exact ⟨th', Function.update_self _ _ _, hrun⟩
      · cases hq
    · rintro ⟨x, hx, hrun⟩
      obtain ⟨rfl, rfl⟩ | ⟨hq, hx⟩ := update_eq_some.mp hx
      · rw [if_pos hrun]
      · exact absurd (hcur q ((h.current_iff q).mpr ⟨x, hx, hrun⟩)) hq
  held_nodup := hheldNodup
  held_iff := by
    intro a
    rw [hheld, h.held_iff, hthreads]
    constructor
    · rintro (hnew | ⟨⟨q, x, hx, ha⟩, hne⟩)
      · exact ⟨t, th', Function.update_self _ _ _, hnew⟩
      · refine ⟨q, x, update_eq_some.mpr (.inr ⟨?_, hx⟩), ha⟩
        rintro rfl
        obtain rfl := Option.some.inj (hth.symm.trans hx)
        exact hne ha
    · rintro ⟨q, x, hx, ha⟩
      obtain ⟨-, rfl⟩ | ⟨hq, hx⟩ := update_eq_some.mp hx
      · exact .inl ha
      · refine .inr ⟨⟨q, x, hx, ha⟩, fun hth' => hq ?_⟩
        exact h.apart q t x th a hx hth (mem_pieces_of_waitsAs ha) (mem_pieces_of_waitsAs hth')

/-- The thread known under a number. -/
theorem waiter_eq (h : s.Wf) {a : Nat} (hth : s.threads t = some th) (ha : th.waitsAs = some a) :
    s.waiter a = some t := by
  have hfound : ((s.threads t).bind Thread.waitsAs == some a) = true := by
    simp [hth, ha]
  cases hw : s.waiter a with
  | none => exact absurd hfound (List.find?_eq_none.mp hw t ((h.mem_names t).mpr ⟨th, hth⟩))
  | some q =>
      have hq : (s.threads q).bind Thread.waitsAs = some a := by
        simpa using List.find?_some hw
      obtain ⟨x, hx, hxa⟩ := Option.bind_eq_some_iff.mp hq
      rw [h.apart q t x th a hx hth (mem_pieces_of_waitsAs hxa) (mem_pieces_of_waitsAs ha)]

/-! ## What each step does -/

/-- Somebody who lets a thread go on finds it waiting. -/
theorem held (h : s.Wf) {a : Nat} (ha : a ∈ s.held) :
    ∃ t pt ks, s.threads t = some (.waiting a pt ks) ∧ s.waiter a = some t := by
  obtain ⟨t, th, hth, hwaits⟩ := (h.held_iff a).mp ha
  have hwaiter := h.waiter_eq hth hwaits
  cases th with
  | running me pt ks => cases hwaits
  | finished me o => cases hwaits
  | waiting me pt ks =>
      obtain rfl := Option.some.inj hwaits
      exact ⟨t, pt, ks, hth, hwaiter⟩

theorem resume_eq {a : Nat} {pt : σ} {ks : Callers σ ν ε} (hth : s.threads t = some (.waiting a pt ks))
    (hwaiter : s.waiter a = some t) :
    s.resume a = { s with held := s.held.erase a }.put t (.running a pt ks) := by
  simp only [resume, hwaiter, hth]

/-- The current thread runs. -/
theorem current (h : s.Wf) (hcur : s.current = some t) :
    ∃ me pt ks, s.threads t = some (.running me pt ks) := by
  obtain ⟨th, hth, hrun⟩ := (h.current_iff t).mp hcur
  cases th with
  | running me pt ks => exact ⟨me, pt, ks, hth⟩
  | waiting me pt ks => cases hrun
  | finished me o => cases hrun

theorem tick_eq {prog : Program σ ω ν ε} {me : Nat} {pt : σ} {ks : Callers σ ν ε}
    (hcur : s.current = some t) (hth : s.threads t = some (.running me pt ks)) :
    s.tick prog = s.stepThread prog t me pt ks := by
  simp only [tick, hcur, hth]

/-! ## One step -/

theorem spawn (h : s.Wf) (pt : σ) : (s.spawn pt).Wf := by
  have hfree : s.threads s.next = none := by
    cases hth : s.threads s.next with
    | none => rfl
    | some th =>
        have hroot : s.next ∈ th.pieces := List.mem_of_getLast? (h.root _ th hth)
        exact absurd (h.lt_next _ th _ hth hroot) (Nat.lt_irrefl _)
  have hunnamed : s.next ∉ s.names := by
    rw [h.mem_names, hfree]
    rintro ⟨th, hth⟩
    cases hth
  have hunheld : s.next ∉ s.held := by
    rw [h.held_iff]
    rintro ⟨t, th, hth, ha⟩
    exact absurd (h.lt_next t th _ hth (mem_pieces_of_waitsAs ha)) (Nat.lt_irrefl _)
  -- the new thread has one piece, with a number beyond all others
  have hcases : ∀ {q x}, (s.spawn pt).threads q = some x →
      q = s.next ∧ x = .waiting s.next pt [] ∨ q ≠ s.next ∧ s.threads q = some x := update_eq_some.mp
  constructor
  · exact List.nodup_append.mpr ⟨h.names_nodup, List.nodup_singleton _, by
      rintro a ha b hb rfl
      exact hunnamed (List.mem_singleton.mp hb ▸ ha)⟩
  · intro q
    show q ∈ s.names ++ [s.next] ↔ ∃ th, Function.update s.threads s.next _ q = some th
    rw [List.mem_append, List.mem_singleton, h.mem_names]
    by_cases hq : q = s.next
    · subst hq
      simp
    · rw [Function.update_of_ne hq]
      simp [hq]
  · intro q x hx
    obtain ⟨rfl, rfl⟩ | ⟨-, hx⟩ := hcases hx
    · rfl
    · exact h.root q x hx
  · intro q x hx
    obtain ⟨rfl, rfl⟩ | ⟨-, hx⟩ := hcases hx
    · exact List.nodup_singleton _
    · exact h.nodup q x hx
  · intro q q' x x' a hx hx' ha ha'
    obtain ⟨rfl, rfl⟩ | ⟨-, hx⟩ := hcases hx
    · obtain rfl := List.mem_singleton.mp ha
      obtain ⟨rfl, -⟩ | ⟨-, hx'⟩ := hcases hx'
      · rfl
      · exact absurd (h.lt_next q' x' _ hx' ha') (Nat.lt_irrefl _)
    · obtain ⟨rfl, rfl⟩ | ⟨-, hx'⟩ := hcases hx'
      · obtain rfl := List.mem_singleton.mp ha'
        exact absurd (h.lt_next q x _ hx ha) (Nat.lt_irrefl _)
      · exact h.apart q q' x x' a hx hx' ha ha'
  · intro q x a hx ha
    obtain ⟨rfl, rfl⟩ | ⟨-, hx⟩ := hcases hx
    · obtain rfl := List.mem_singleton.mp ha
      exact Nat.lt_succ_self _
    · exact Nat.lt_succ_of_lt (h.lt_next q x a hx ha)
  · intro q
    show s.current = some q ↔ ∃ th, Function.update s.threads s.next _ q = some th ∧ _
    rw [h.current_iff]
    constructor
    · rintro ⟨th, hth, hrun⟩
      refine ⟨th, update_eq_some.mpr (.inr ⟨?_, hth⟩), hrun⟩
      rintro rfl
      rw [hfree] at hth
      cases hth
    · rintro ⟨th, hth, hrun⟩
      obtain ⟨-, rfl⟩ | ⟨-, hth⟩ := update_eq_some.mp hth
      · cases hrun
      · exact ⟨th, hth, hrun⟩
  · exact List.nodup_append.mpr ⟨h.held_nodup, List.nodup_singleton _, by
      rintro a ha b hb rfl
      exact hunheld (List.mem_singleton.mp hb ▸ ha)⟩
  · intro a
    show a ∈ s.held ++ [s.next] ↔ ∃ t th, Function.update s.threads s.next _ t = some th ∧ _
    rw [List.mem_append, List.mem_singleton, h.held_iff]
    constructor
    · rintro (⟨q, x, hx, ha⟩ | rfl)
      · refine ⟨q, x, update_eq_some.mpr (.inr ⟨?_, hx⟩), ha⟩
        rintro rfl
        rw [hfree] at hx
        cases hx
      · exact ⟨s.next, _, update_eq_some.mpr (.inl ⟨rfl, rfl⟩), rfl⟩
    · rintro ⟨q, x, hx, ha⟩
      obtain ⟨-, rfl⟩ | ⟨-, hx⟩ := update_eq_some.mp hx
      · exact .inr (Option.some.inj ha).symm
      · exact .inl ⟨q, x, hx, ha⟩

theorem resume (h : s.Wf) {a : Nat} (hcur : s.current = none) (ha : a ∈ s.held) :
    (s.resume a).Wf := by
  obtain ⟨t, pt, ks, hth, hwaiter⟩ := h.held ha
  have hroot := h.root t _ hth
  have hnodup := h.nodup t _ hth
  rw [resume_eq hth hwaiter]
  refine h.put hth rfl rfl rfl ?_ hroot hnodup (Nat.le_refl _)
    (fun b hb => .inl hb) (h.held_nodup.erase a) ?_
  · intro q hq
    rw [hcur] at hq
    cases hq
  · intro b
    show b ∈ s.held.erase a ↔ none = some b ∨ b ∈ s.held ∧ some a ≠ some b
    rw [h.held_nodup.mem_erase_iff]
    simp [and_comm, eq_comm]

/-- The current thread goes on within its pieces, and does not wait. -/
theorem put_running (h : s.Wf) {me : Nat} {pt : σ} {ks : Callers σ ν ε} (hcur : s.current = some t)
    (hth : s.threads t = some (.running me pt ks)) (w : ω) {n : Nat} (hn : s.next ≤ n)
    (hwaits : th'.waitsAs = none) (hroot : th'.pieces.getLast? = some t) (hnodup : th'.pieces.Nodup)
    (hpieces : ∀ a ∈ th'.pieces, a ∈ me :: ks.map Prod.fst ∨ s.next ≤ a ∧ a < n) :
    (({ s with world := w, next := n } : Pool σ ω ν ε).put t th').Wf := by
  refine h.put hth rfl rfl rfl ?_ hroot hnodup hn hpieces h.held_nodup ?_
  · intro q hq
    exact Option.some.inj (hq.symm.trans hcur)
  · intro b
    show b ∈ s.held ↔ th'.waitsAs = some b ∨ b ∈ s.held ∧ none ≠ some b
    rw [hwaits]
    simp

/-- A piece that ends gives way to its caller. -/
theorem put_returns (h : s.Wf) {me : Nat} {pt : σ} {ks : Callers σ ν ε} (hcur : s.current = some t)
    (hth : s.threads t = some (.running me pt ks)) (o : Except ε ν) :
    (s.put t (.returns me o ks)).Wf := by
  have hroot := h.root t _ hth
  have hnodup := h.nodup t _ hth
  cases ks with
  | nil =>
      exact h.put_running hcur hth s.world (Nat.le_refl _) rfl hroot hnodup fun b hb => .inl hb
  | cons caller ks =>
      obtain ⟨p, k⟩ := caller
      exact h.put_running hcur hth s.world (Nat.le_refl _) rfl hroot (List.nodup_cons.mp hnodup).2
        fun b hb => .inl (List.mem_cons_of_mem _ hb)

/-! ## The thread that runs -/

theorem tick (h : s.Wf) (prog : Program σ ω ν ε) : (s.tick prog).Wf := by
  cases hcur : s.current with
  | none =>
      rw [Pool.tick, hcur]
      exact h
  | some t =>
      obtain ⟨me, pt, ks, hth⟩ := h.current hcur
      have hroot := h.root t _ hth
      have hnodup := h.nodup t _ hth
      rw [tick_eq hcur hth, stepThread]
      cases prog pt with
      | ret v => exact h.put_returns hcur hth _
      | throw e => exact h.put_returns hcur hth _
      | act f =>
          exact h.put_running hcur hth _ (Nat.le_refl _) rfl hroot hnodup fun b hb => .inl hb
      | wait leave pt' =>
          have hunheld : me ∉ s.held := by
            rw [h.held_iff]
            rintro ⟨q, x, hx, ha⟩
            obtain rfl := h.apart q t x _ me hx hth (mem_pieces_of_waitsAs ha) List.mem_cons_self
            rw [hth] at hx
            obtain rfl := Option.some.inj hx
            cases ha
          refine h.put hth rfl rfl rfl ?_ hroot hnodup (Nat.le_refl _) (fun b hb => .inl hb) ?_ ?_
          · intro q hq
            exact Option.some.inj (hq.symm.trans hcur)
          · exact List.nodup_append.mpr ⟨h.held_nodup, List.nodup_singleton _, by
              rintro a ha b hb rfl
              exact hunheld (List.mem_singleton.mp hb ▸ ha)⟩
          · intro b
            show b ∈ s.held ++ [me] ↔ some me = some b ∨ b ∈ s.held ∧ none ≠ some b
            simp [or_comm, eq_comm]
      | call callee k =>
          refine h.put_running hcur hth s.world (Nat.le_succ _) rfl ?_ ?_ ?_
          · show ((s.next :: me :: ks.map Prod.fst)).getLast? = some t
            rw [List.getLast?_cons_cons]
            exact hroot
          · refine List.nodup_cons.mpr ⟨fun hmem => ?_, hnodup⟩
            exact absurd (h.lt_next t _ _ hth hmem) (Nat.lt_irrefl _)
          · intro b hb
            obtain rfl | hb := List.mem_cons.mp hb
            · exact .inr ⟨Nat.le_refl _, Nat.lt_succ_self _⟩
            · exact .inl hb

theorem prune (h : s.Wf) : s.prune.Wf := by
  constructor
  · exact h.names_nodup.filter _
  · intro q
    show q ∈ s.names.filter (fun t => !s.finishedAt t) ↔ _
    rw [List.mem_filter, h.mem_names]
    constructor
    · rintro ⟨⟨th, hth⟩, hfin⟩
      refine ⟨th, threads_prune.mpr ⟨hth, ?_⟩⟩
      simpa [finishedAt, hth] using hfin
    · rintro ⟨th, hth⟩
      obtain ⟨hth, hfin⟩ := threads_prune.mp hth
      exact ⟨⟨th, hth⟩, by simp [finishedAt, hth, hfin]⟩
  · exact fun q x hx => h.root q x (threads_prune.mp hx).1
  · exact fun q x hx => h.nodup q x (threads_prune.mp hx).1
  · exact fun q q' x x' a hx hx' => h.apart q q' x x' a (threads_prune.mp hx).1 (threads_prune.mp hx').1
  · exact fun q x a hx => h.lt_next q x a (threads_prune.mp hx).1
  · intro q
    show s.current = some q ↔ _
    rw [h.current_iff]
    constructor
    · rintro ⟨th, hth, hrun⟩
      refine ⟨th, threads_prune.mpr ⟨hth, ?_⟩, hrun⟩
      cases th <;> first | rfl | cases hrun
    · rintro ⟨th, hth, hrun⟩
      exact ⟨th, (threads_prune.mp hth).1, hrun⟩
  · exact h.held_nodup
  · intro a
    show a ∈ s.held ↔ _
    rw [h.held_iff]
    constructor
    · rintro ⟨t, th, hth, ha⟩
      refine ⟨t, th, threads_prune.mpr ⟨hth, ?_⟩, ha⟩
      cases th <;> first | rfl | cases ha
    · rintro ⟨t, th, hth, ha⟩
      exact ⟨t, th, (threads_prune.mp hth).1, ha⟩

/-- The world is no part of it. -/
theorem of_world (h : s.Wf) (w : ω) : ({ s with world := w } : Pool σ ω ν ε).Wf :=
  ⟨h.names_nodup, h.mem_names, h.root, h.nodup, h.apart, h.lt_next, h.current_iff, h.held_nodup,
    h.held_iff⟩

end Wf

/-- A pool without threads. -/
theorem wf_empty (w : ω) : ({ world := w } : Pool σ ω ν ε).Wf where
  names_nodup := List.nodup_nil
  mem_names := by
    intro t
    simp
  root := nofun
  nodup := nofun
  apart := nofun
  lt_next := nofun
  current_iff := by
    intro t
    simp
  held_nodup := List.nodup_nil
  held_iff := by
    intro a
    simp

end Pool

end LightNet.Foundation
