/-
# LightNet.Metrics.Histogram — the latency histograms of `metrics/metrics.cpp`, and their export.

`observe` counts a value in one bucket, the first whose bound it does not exceed; `export_to` adds the
buckets up again.  The counters are 64 bits wide and wrap.  `Exported` is what an export says, apart
from how it is written: `exportTo_eq` reads it off the text that the loop produces, and `cumulative`
is what it ought to be.
-/
import LightNet.Foundation.Buckets
import LightNet.Foundation.Decimal
import LightNet.Foundation.Run
import Mathlib.Algebra.BigOperators.Group.List.Basic
import Mathlib.Data.UInt

namespace LightNet.Metrics

open LightNet.Foundation

/-- The number of buckets. -/
def kBuckets : Nat := 12

/-- `kBucketBounds`; the last one is `UINT64_MAX`. -/
def kBucketBounds : List UInt64 :=
  [100, 500, 1000, 5000, 10000, 50000, 100000, 500000, 1000000, 5000000, 10000000,
    18446744073709551615]

/-- `Metrics::Histogram`. -/
@[ext]
structure Histogram where
  buckets : List UInt64 := List.replicate kBuckets 0
  sum : UInt64 := 0
  count : UInt64 := 0
  length_buckets : buckets.length = kBuckets := by rfl

namespace Histogram

/-- `observe(value)`; the loop breaks at the first bound. -/
def observe (h : Histogram) (value : UInt64) : Histogram where
  buckets := Buckets.count value kBucketBounds h.buckets
  sum := h.sum + value
  count := h.count + 1
  length_buckets := (Buckets.length_count value kBucketBounds h.buckets).trans h.length_buckets

/-- One line `name_bucket{le="bound"} cumulative`. -/
def bucketLine (name : Bytes) (bound cumulative : UInt64) : Bytes :=
  name ++ literal "_bucket\x7ble=\"" ++ decimal bound.toNat ++ literal "\"\x7d " ++ decimal cumulative.toNat
    ++ literal "\n"

/-- The loop of `export_to` over the buckets. -/
def exportBuckets (name : Bytes) : List UInt64 → List UInt64 → UInt64 → Bytes → Bytes
  | bound :: bounds, n :: buckets, cumulative, out =>
      let cumulative := cumulative + n
      exportBuckets name bounds buckets cumulative (out ++ bucketLine name bound cumulative)
  | _, _, _, out => out

/-- `export_to(out, name)`. -/
def exportTo (h : Histogram) (out name : Bytes) : Bytes :=
  let out := out ++ (literal "# TYPE " ++ name ++ literal " histogram\n")
  let out := exportBuckets name kBucketBounds h.buckets 0 out
  let out := out ++ (name ++ literal "_sum " ++ decimal h.sum.toNat ++ literal "\n")
  out ++ (name ++ literal "_count " ++ decimal h.count.toNat ++ literal "\n")

/-- The histogram after some values. -/
def observed (values : List UInt64) : Histogram := run observe {} values

end Histogram

/-! ## What an export says -/

/-- A value for each bound, the sum and the count. -/
structure Exported where
  buckets : List (UInt64 × UInt64)
  sum : UInt64
  count : UInt64

namespace Exported

/-- The Prometheus text. -/
def text (e : Exported) (name : Bytes) : Bytes :=
  literal "# TYPE " ++ name ++ literal " histogram\n"
    ++ (e.buckets.flatMap fun p => Histogram.bucketLine name p.1 p.2)
    ++ (name ++ literal "_sum " ++ decimal e.sum.toNat ++ literal "\n")
    ++ (name ++ literal "_count " ++ decimal e.count.toNat ++ literal "\n")

/-- The cumulative histogram of some values, each number modulo `2^64`. -/
def cumulative (values : List UInt64) : Exported where
  buckets := kBucketBounds.map fun b => (b, UInt64.ofNat (values.countP (· ≤ b)))
  sum := UInt64.ofNat (values.map UInt64.toNat).sum
  count := UInt64.ofNat values.length

/-- The values grow with their bounds, and the last one is the count. -/
structure Monotone (e : Exported) : Prop where
  ascending : e.buckets.Pairwise fun p q => p.1 < q.1 ∧ p.2 ≤ q.2
  last : ∃ p, e.buckets.getLast? = some p ∧ p.2 = e.count

/-- The cumulative histogram does not depend on the order of the values. -/
theorem cumulative_perm {values values' : List UInt64} (h : values.Perm values') :
    cumulative values = cumulative values' := by
  have hcount : ∀ b : UInt64, values.countP (· ≤ b) = values'.countP (· ≤ b) :=
    fun b => h.countP_eq (p := (· ≤ b))
  simp only [cumulative, hcount, h.length_eq, (h.map UInt64.toNat).sum_eq]

theorem cumulative_monotone {values : List UInt64} (h : values.length < 2 ^ 64) :
    (cumulative values).Monotone := by
  have hwrap : ∀ b : UInt64, (UInt64.ofNat (values.countP (· ≤ b))).toNat = values.countP (· ≤ b) := by
    intro b
    exact UInt64.toNat_ofNat_of_lt' (lt_of_le_of_lt List.countP_le_length h)
  constructor
  · have hbounds : kBucketBounds.Pairwise (· < ·) := by decide
    refine List.pairwise_map.mpr (hbounds.imp fun {b c} hlt => ⟨hlt, ?_⟩)
    rw [UInt64.le_iff_toNat_le, hwrap, hwrap]
    refine List.countP_mono_left fun v _ hv => ?_
    exact decide_eq_true (UInt64.le_trans (of_decide_eq_true hv) (UInt64.le_of_lt hlt))
  · -- no value exceeds the last bound
    have hall : values.countP (· ≤ 18446744073709551615) = values.length := by
      refine List.countP_eq_length.mpr fun v _ => decide_eq_true ?_
      rw [UInt64.le_iff_toNat_le]
      exact Nat.le_of_lt_succ v.toNat_lt
    exact ⟨_, rfl, congrArg UInt64.ofNat hall⟩

end Exported

namespace Histogram

/-! ## What is exported -/

/-- What the export of a histogram says. -/
def exported (h : Histogram) : Exported :=
  ⟨kBucketBounds.zip (Buckets.totals 0 h.buckets), h.sum, h.count⟩

theorem exportBuckets_eq (name : Bytes) (bounds buckets : List UInt64) (acc : UInt64) (out : Bytes) :
    exportBuckets name bounds buckets acc out
      = out ++ (bounds.zip (Buckets.totals acc buckets)).flatMap fun p => bucketLine name p.1 p.2 := by
  induction bounds generalizing buckets acc out with
  | nil => simp [exportBuckets]
  | cons b bounds ih =>
      cases buckets with
      | nil => simp [exportBuckets, Buckets.totals]
      | cons n buckets =>
          rw [exportBuckets, ih, Buckets.totals, List.zip_cons_cons, List.flatMap_cons,
            List.append_assoc]

theorem exportTo_eq (h : Histogram) (out name : Bytes) :
    h.exportTo out name = out ++ h.exported.text name := by
  simp only [exportTo, Exported.text, exported, exportBuckets_eq, List.append_assoc]

theorem run_observe_buckets (h : Histogram) (values : List UInt64) :
    (run observe h values).buckets
      = values.foldl (fun counts v => Buckets.count v kBucketBounds counts) h.buckets := by
  induction values generalizing h with
  | nil => rfl
  | cons v values ih => exact ih (h.observe v)

theorem run_observe_sum (h : Histogram) (values : List UInt64) :
    (run observe h values).sum = h.sum + UInt64.ofNat (values.map UInt64.toNat).sum := by
  induction values generalizing h with
  | nil => exact (UInt64.add_zero _).symm
  | cons v values ih =>
      rw [run_cons, ih, List.map_cons, List.sum_cons, UInt64.ofNat_add, UInt64.ofNat_toNat,
        ← UInt64.add_assoc]
      rfl

theorem run_observe_count (h : Histogram) (values : List UInt64) :
    (run observe h values).count = h.count + UInt64.ofNat values.length := by
  induction values generalizing h with
  | nil => exact (UInt64.add_zero _).symm
  | cons v values ih =>
      rw [run_cons, ih, List.length_cons, Nat.add_comm, UInt64.ofNat_add, ← UInt64.add_assoc]
      rfl

open scoped UInt64.CommRing in
/-- The running totals of the buckets are the counts up to the bounds. -/
theorem totals_observed (values : List UInt64) :
    Buckets.totals 0 (observed values).buckets
      = kBucketBounds.map fun b => UInt64.ofNat (values.countP (· ≤ b)) := by
  have hsorted : kBucketBounds.Pairwise (· ≤ ·) := by decide
  rw [observed, run_observe_buckets]
  exact Buckets.totals_observed hsorted values

/-- **A histogram exports the cumulative histogram of what it has observed.** -/
theorem exported_observed (values : List UInt64) :
    (observed values).exported = Exported.cumulative values := by
  have hsum : (observed values).sum = UInt64.ofNat (values.map UInt64.toNat).sum :=
    (run_observe_sum {} values).trans (UInt64.zero_add _)
  have hcount : (observed values).count = UInt64.ofNat values.length :=
    (run_observe_count {} values).trans (UInt64.zero_add _)
  rw [exported, totals_observed, hsum, hcount, Exported.cumulative, List.zip_map_right]
  simp [List.zip_eq_zipWith]

/-- One of the atomic additions that a call of `observe` makes. -/
inductive Add where
  | sum (value : UInt64)
  | count
  | bucket (value : UInt64)

/-- One addition, to one of the counters. -/
def add (h : Histogram) : Add → Histogram
  | .sum value => { h with sum := h.sum + value }
  | .count => { h with count := h.count + 1 }
  | .bucket value =>
      { h with
        buckets := Buckets.count value kBucketBounds h.buckets
        length_buckets := (Buckets.length_count _ _ _).trans h.length_buckets }

/-- The additions of one call. -/
def additions (value : UInt64) : List Add := [.sum value, .count, .bucket value]

theorem observe_eq_run (h : Histogram) (value : UInt64) : h.observe value = run add h (additions value) :=
  rfl

theorem add_add_comm (h : Histogram) (a b : Add) : (h.add a).add b = (h.add b).add a := by
  cases a with
  | sum v =>
      cases b with
      | sum w =>
          have hsum : h.sum + v + w = h.sum + w + v := by
            rw [UInt64.add_assoc, UInt64.add_comm v, ← UInt64.add_assoc]
          exact Histogram.ext rfl hsum rfl
      | count | bucket w => rfl
  | count => cases b <;> rfl
  | bucket v =>
      cases b with
      | sum w | count => rfl
      | bucket w => exact Histogram.ext (Buckets.count_comm w v kBucketBounds h.buckets) rfl rfl

/-- **However the additions of concurrent calls interleave**, the histogram is that of the calls one
after the other. -/
theorem run_add_of_perm {values : List UInt64} {adds : List Add}
    (h : adds.Perm (values.flatMap additions)) : run add {} adds = observed values := by
  have hsequential : ∀ (h : Histogram) (values : List UInt64),
      run add h (values.flatMap additions) = run observe h values := by
    intro h values
    induction values generalizing h with
    | nil => rfl
    | cons v values ih => rw [List.flatMap_cons, run_append, ih, ← observe_eq_run, run_cons]
  have : RightCommutative add := ⟨add_add_comm⟩
  rw [run, h.foldl_eq]
  exact hsequential {} values

end Histogram

end LightNet.Metrics
