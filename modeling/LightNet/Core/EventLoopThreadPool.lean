/-
# LightNet.Core.EventLoopThreadPool — the loop that gets the next connection.

`next_` is a signed counter of 32 bits that is only ever increased, and it wraps around after `2 ^ 31`
calls.  From then on it is negative half of the time, and so is its remainder, which is used as an
index all the same.
-/
import Mathlib.Algebra.Order.Group.Int
import Mathlib.Algebra.Order.Ring.Int
import Mathlib.Logic.Function.Iterate

namespace LightNet.Core

/-- A loop: the one that accepts, or a worker in the order in which they were made. -/
inductive LoopName where
  | base
  | worker (i : Nat)
  deriving DecidableEq

/-- `lightnet::EventLoopThreadPool`, where `none` in `loops` is the null pointer. -/
structure EventLoopThreadPool where
  started : Bool := false
  numThreads : Int32 := 0
  next : Int32 := 0
  loops : List (Option LoopName) := []

namespace EventLoopThreadPool

/-- `set_thread_num(num_threads)`. -/
def setThreadNum (pool : EventLoopThreadPool) (numThreads : Int32) : EventLoopThreadPool :=
  { pool with numThreads }

/-- `start()`. -/
def start (pool : EventLoopThreadPool) : EventLoopThreadPool :=
  let workers := (List.range pool.numThreads.toInt.toNat).map fun i => some (LoopName.worker i)
  let loops := pool.loops ++ workers
  { pool with
    started := true
    -- without workers a null pointer holds the place
    loops := if pool.numThreads = 0 then loops ++ [none] else loops }

/-- `next_.fetch_add(1) % static_cast<int>(loops_.size())`, where `%` truncates towards zero. -/
def index (pool : EventLoopThreadPool) : Int32 := pool.next % Int32.ofNat pool.loops.length

/-- `loops_[idx]`, which is `none` where there is no such element. -/
def loopAt (pool : EventLoopThreadPool) (idx : Int32) : Option (Option LoopName) :=
  if 0 ≤ idx.toInt then pool.loops[idx.toInt.toNat]? else none

/-- There is no loop in `loops_`, or nothing but the null pointer. -/
def NoWorkers (pool : EventLoopThreadPool) : Prop := pool.loops = [] ∨ pool.loops = [none]

instance (pool : EventLoopThreadPool) : Decidable pool.NoWorkers :=
  inferInstanceAs (Decidable (_ ∨ _))

/-- `get_next_loop()`: what is returned, and the pool after it. -/
def getNextLoop (pool : EventLoopThreadPool) : Option (Option LoopName) × EventLoopThreadPool :=
  if pool.NoWorkers then (some (some .base), pool)
  else (pool.loopAt pool.index, { pool with next := pool.next + 1 })

/-- The pool with `n` workers that has been asked `k` times. -/
def asked (n : Int32) (k : Nat) : EventLoopThreadPool :=
  (fun pool => pool.getNextLoop.2)^[k] (setThreadNum {} n).start

/-- The value of `next_` at the `k`-th call, from 0. -/
def counter (k : Nat) : Int := (Int32.ofNat k).toInt

/-! ## The counter -/

variable {n : Int32}

theorem loops_start (hn : 0 < n.toInt) : (setThreadNum {} n).start.loops
    = (List.range n.toInt.toNat).map fun i => some (LoopName.worker i) := by
  have hne : n ≠ 0 := by
    rintro rfl
    exact absurd hn (by decide)
  exact (if_neg hne).trans (List.nil_append _)

theorem not_noWorkers (hn : 0 < n.toInt) {pool : EventLoopThreadPool}
    (hloops : pool.loops = (setThreadNum {} n).start.loops) : ¬pool.NoWorkers := by
  obtain ⟨m, hm⟩ : ∃ m, n.toInt.toNat = m + 1 := ⟨n.toInt.toNat - 1, by omega⟩
  rw [NoWorkers, hloops, loops_start hn, hm, List.range_succ_eq_map]
  simp

/-- After `k` calls only the counter has changed. -/
theorem asked_eq (hn : 0 < n.toInt) (k : Nat) :
    asked n k = { (setThreadNum {} n).start with next := Int32.ofNat k } := by
  induction k with
  | zero => rfl
  | succ k ih =>
      have hnext : asked n (k + 1) = (asked n k).getNextLoop.2 := Function.iterate_succ_apply' _ _ _
      have hworkers : ¬(asked n k).NoWorkers := not_noWorkers hn (by rw [ih])
      rw [hnext, getNextLoop, if_neg hworkers, ih, Int32.ofNat_add]
      rfl

theorem counter_eq (k : Nat) : counter k = (k : Int).bmod (2 ^ 32) := Int32.toInt_ofNat'

/-- The first `2 ^ 31` calls see what they count. -/
theorem counter_of_lt {k : Nat} (hk : k < 2 ^ 31) : counter k = k := by
  rw [counter_eq]
  exact Int.bmod_eq_of_le (by omega) (by omega)

theorem length_loops (hn : 0 < n.toInt) : ((setThreadNum {} n).start.loops.length : Int) = n.toInt := by
  rw [loops_start hn, List.length_map, List.length_range]
  omega

theorem toInt_index (hn : 0 < n.toInt) (k : Nat) :
    (asked n k).index.toInt = (counter k).tmod n.toInt := by
  have hlen := length_loops hn
  have hlt := n.toInt_lt
  have hsize : (Int32.ofNat (setThreadNum {} n).start.loops.length).toInt = n.toInt := by
    rw [Int32.toInt_ofNat', hlen]
    show n.toInt.bmod (2 ^ 32) = n.toInt
    exact Int.bmod_eq_of_le (by omega) (by omega)
  rw [asked_eq hn]
  show (Int32.ofNat k % Int32.ofNat (setThreadNum {} n).start.loops.length).toInt = _
  rw [Int32.toInt_mod, hsize, counter]

/-- The remainder of a counter is an index of the vector. -/
theorem tmod_nonneg_iff {c m : Int} (hm : 0 < m) : 0 ≤ c.tmod m ↔ 0 ≤ c ∨ m ∣ c := by
  rcases lt_or_ge c 0 with hneg | hpos
  · have hsign : c.tmod m = -(-c % m) := by
      rw [← Int.tmod_eq_emod_of_nonneg (by omega), Int.neg_tmod, neg_neg]
    have hrange := Int.emod_nonneg (-c) hm.ne'
    constructor
    · intro h
      exact .inr (Int.dvd_neg.mp (Int.dvd_of_emod_eq_zero (by omega)))
    · rintro (h | h)
      · omega
      · rw [hsign, Int.emod_eq_zero_of_dvd (Int.dvd_neg.mpr h)]
        exact le_rfl
  · exact iff_of_true (Int.tmod_nonneg m hpos) (.inl hpos)

/-- The remainder of a counter is the one of the number of calls. -/
theorem tmod_eq_emod_iff {c m : Int} (hm : 0 < m) (k : Int) :
    c.tmod m = k % m ↔ m ∣ k - c ∧ (0 ≤ c ∨ m ∣ c) := by
  rw [← tmod_nonneg_iff hm]
  -- the remainder differs from the counter by a multiple
  have hmul : m ∣ c.tmod m - c := Int.dvd_sub_self_of_tmod_eq rfl
  constructor
  · intro h
    have hk : m ∣ k - k % m := Int.dvd_self_sub_of_emod_eq rfl
    have hsum := Int.dvd_add hk (h ▸ hmul)
    rw [show k - k % m + (k % m - c) = k - c by omega] at hsum
    exact ⟨hsum, h ▸ Int.emod_nonneg k hm.ne'⟩
  · rintro ⟨hdvd, hpos⟩
    have hsub := Int.dvd_sub hdvd hmul
    rw [show k - c - (c.tmod m - c) = k - c.tmod m by omega] at hsub
    rw [Int.emod_eq_emod_iff_emod_sub_eq_zero.mpr (Int.emod_eq_zero_of_dvd hsub),
      Int.emod_eq_of_lt hpos (Int.tmod_lt_of_pos c hm)]

/-! ## Round-robin -/

/-- The `k`-th call, from 0, returns the loop whose turn it is. -/
def TakesTurn (n : Int32) (k : Nat) : Prop :=
  (asked n k).getNextLoop.1 = some (some (.worker (k % n.toInt.toNat)))

/-- The index of the `k`-th call is one of `loops_`. -/
def InRange (n : Int32) (k : Nat) : Prop :=
  0 ≤ (asked n k).index.toInt ∧ (asked n k).index.toInt < n.toInt

theorem getNextLoop_asked (hn : 0 < n.toInt) (k : Nat) :
    (asked n k).getNextLoop.1
      = if 0 ≤ (asked n k).index.toInt then some (some (.worker (asked n k).index.toInt.toNat))
        else none := by
  have hloops : (asked n k).loops = (setThreadNum {} n).start.loops := by rw [asked_eq hn]
  have hlt : (asked n k).index.toInt < n.toInt := by
    rw [toInt_index hn]
    exact Int.tmod_lt_of_pos _ hn
  rw [getNextLoop, if_neg (not_noWorkers hn hloops)]
  show (asked n k).loopAt (asked n k).index = _
  rw [loopAt, hloops, loops_start hn]
  split
  · rw [List.getElem?_map, List.getElem?_range (by omega), Option.map_some]
  · rfl

theorem takesTurn_iff_index (hn : 0 < n.toInt) (k : Nat) :
    TakesTurn n k ↔ (asked n k).index.toInt = k % n.toInt := by
  have hrange : 0 ≤ (k : Int) % n.toInt := Int.emod_nonneg _ hn.ne'
  have hcast : ((k % n.toInt.toNat : Nat) : Int) = k % n.toInt := by
    rw [Int.natCast_mod, Int.toNat_of_nonneg hn.le]
  rw [TakesTurn, getNextLoop_asked hn]
  split
  · rw [Option.some_inj, Option.some_inj, LoopName.worker.injEq]
    omega
  · exact iff_of_false nofun (by omega)

/-- **When a call takes its turn.** With `c` the value of the signed counter, the `k`-th call returns
`loops_[k mod n]` if and only if `n` divides `k - c`, and `c` is not negative or `n` divides it too; the
index is in range exactly under the second of these conditions.  The first `2 ^ 31` calls meet both,
and all calls do only if there is just one worker. -/
theorem takesTurn_iff (n : Int32) (hn : 0 < n.toInt) :
    (∀ k : Nat, (TakesTurn n k ↔ n.toInt ∣ k - counter k ∧ (0 ≤ counter k ∨ n.toInt ∣ counter k))
        ∧ (InRange n k ↔ 0 ≤ counter k ∨ n.toInt ∣ counter k)
        ∧ (k < 2 ^ 31 → TakesTurn n k))
      ∧ ((∀ k, TakesTurn n k) ↔ n.toInt = 1) := by
  have hturn : ∀ k : Nat,
      TakesTurn n k ↔ n.toInt ∣ k - counter k ∧ (0 ≤ counter k ∨ n.toInt ∣ counter k) := by
    intro k
    rw [takesTurn_iff_index hn, toInt_index hn, tmod_eq_emod_iff hn]
  refine ⟨fun k => ⟨hturn k, ?_, fun hk => ?_⟩, fun hall => ?_, fun hone k => ?_⟩
  · rw [InRange, toInt_index hn, ← tmod_nonneg_iff hn]
    exact and_iff_left (Int.tmod_lt_of_pos _ hn)
  · rw [hturn, counter_of_lt hk, Int.sub_self]
    exact ⟨Int.dvd_zero _, .inl (Int.natCast_nonneg k)⟩
  · -- the first two calls after the counter has wrapped around
    have hwrapped : counter (2 ^ 31) = -2 ^ 31 := by
      rw [counter_eq]
      decide
    have hnext : counter (2 ^ 31 + 1) = -2 ^ 31 + 1 := by
      rw [counter_eq]
      decide
    have h₀ : n.toInt ∣ -2 ^ 31 := by
      rw [← hwrapped]
      exact ((hturn _).mp (hall _)).2.resolve_left (by rw [hwrapped]; decide)
    have h₁ : n.toInt ∣ -2 ^ 31 + 1 := by
      rw [← hnext]
      exact ((hturn _).mp (hall _)).2.resolve_left (by rw [hnext]; decide)
    exact Int.eq_one_of_dvd_one hn.le ((Int.dvd_add_right h₀).mp h₁)
  · rw [hturn, hone]
    exact ⟨Int.one_dvd _, .inr (Int.one_dvd _)⟩

/-- Three workers: the eighth call returns the second of them. -/
theorem takesTurn_iff_sample : TakesTurn 3 7 :=
  ((takesTurn_iff 3 (by decide)).1 7).2.2 (by decide)

/-- Three workers: after `2 ^ 31` calls the index is negative. -/
theorem index_out_of_range : ¬TakesTurn 3 (2 ^ 31) ∧ ¬InRange 3 (2 ^ 31) := by
  have hindex : (asked 3 (2 ^ 31)).index.toInt = -2 := by
    rw [toInt_index (by decide), counter_eq]
    decide
  constructor
  · rw [TakesTurn, getNextLoop_asked (by decide), hindex]
    exact nofun
  · rintro ⟨hpos, -⟩
    rw [hindex] at hpos
    exact absurd hpos (by decide)

end EventLoopThreadPool

end LightNet.Core
