/-
# LightNet.Foundation.Consumer — incremental consumers of a growing queue.

A consumer takes items off the front of a queue and changes its own state, one step at a time, until
it can do nothing more with what is there.  Two laws make it *incremental*: a step that is possible
on a queue stays possible, with the same result, when more items are appended (`step_append`), and a
step makes progress (`step_lt`).  From these two laws alone, running on a prefix and then on the
rest is running on the whole (`run_append`), so the way a stream is cut into chunks does not matter
(`feed_run`).
-/
import Mathlib.Data.List.Basic

namespace LightNet.Foundation

/-- A deterministic incremental consumer with states `σ` over items `α`. -/
structure Consumer (σ α : Type*) where
  /-- One step: `none` when nothing can be done with the items that are there. -/
  step : σ → List α → Option (σ × List α)
  /-- What a state can still do without consuming anything. -/
  weight : σ → Nat
  step_append : ∀ {s xs s' ys}, step s xs = some (s', ys) →
    ∀ zs, step s (xs ++ zs) = some (s', ys ++ zs)
  step_lt : ∀ {s xs s' ys}, step s xs = some (s', ys) →
    ys.length + weight s' < xs.length + weight s

namespace Consumer

variable {σ α : Type*} (C : Consumer σ α)

/-- At most `fuel` steps. -/
def drain : Nat → σ → List α → σ × List α
  | 0, s, xs => (s, xs)
  | fuel + 1, s, xs =>
      match C.step s xs with
      | none => (s, xs)
      | some (s', ys) => drain fuel s' ys

/-- Steps until nothing more can be done. -/
def run (s : σ) (xs : List α) : σ × List α := C.drain (xs.length + C.weight s) s xs

variable {C}

/-! ## Runs -/

/-- Fuel beyond the measure changes nothing. -/
theorem drain_eq_run {fuel : Nat} {s : σ} {xs : List α} (h : xs.length + C.weight s ≤ fuel) :
    C.drain fuel s xs = C.run s xs := by
  -- on the measure; both sides take the first step, and the fuel left still covers the rest
  induction hm : xs.length + C.weight s using Nat.strongRecOn generalizing fuel s xs with
  | _ m ih =>
    unfold run
    cases hstep : C.step s xs with
    | none =>
        cases fuel <;> cases hn : xs.length + C.weight s <;> simp [drain, hstep]
    | some r =>
        obtain ⟨s', ys⟩ := r
        have hlt := C.step_lt hstep
        obtain ⟨f, rfl⟩ : ∃ f, fuel = f + 1 := ⟨fuel - 1, by omega⟩
        obtain ⟨n, hn⟩ : ∃ n, xs.length + C.weight s = n + 1 := ⟨xs.length + C.weight s - 1, by omega⟩
        rw [hn]
        simp only [drain, hstep]
        rw [ih _ (by omega) (by omega) rfl, ih _ (by omega) (by omega) rfl]

theorem run_of_none {s : σ} {xs : List α} (h : C.step s xs = none) : C.run s xs = (s, xs) := by
  unfold run
  cases xs.length + C.weight s <;> simp [drain, h]

theorem run_of_some {s s' : σ} {xs ys : List α} (h : C.step s xs = some (s', ys)) :
    C.run s xs = C.run s' ys := by
  have hlt := C.step_lt h
  obtain ⟨n, hn⟩ : ∃ n, xs.length + C.weight s = n + 1 := ⟨xs.length + C.weight s - 1, by omega⟩
  rw [run, hn]
  simp only [drain, h]
  exact drain_eq_run (by omega)

/-- **Induction along a run**: prove a fact where the consumer is stuck and carry it back over each
step it makes. -/
theorem run_induction {P : σ → List α → Prop}
    (stuck : ∀ s xs, C.step s xs = none → P s xs)
    (next : ∀ s xs s' ys, C.step s xs = some (s', ys) → P s' ys → P s xs) (s : σ) (xs : List α) :
    P s xs := by
  induction hm : xs.length + C.weight s using Nat.strongRecOn generalizing s xs with
  | _ m ih =>
    cases hstep : C.step s xs with
    | none => exact stuck s xs hstep
    | some r =>
        obtain ⟨s', ys⟩ := r
        have hlt := C.step_lt hstep
        apply next s xs s' ys hstep
        exact ih _ (by omega) s' ys rfl

/-- A run stops only where nothing more can be done. -/
theorem step_run (s : σ) (xs : List α) : C.step (C.run s xs).1 (C.run s xs).2 = none := by
  induction s, xs using run_induction (C := C) with
  | stuck s xs h => rw [run_of_none h, h]
  | next s xs s' ys h ih => rw [run_of_some h, ih]

/-- A run does not raise the measure. -/
theorem run_measure_le (s : σ) (xs : List α) :
    (C.run s xs).2.length + C.weight (C.run s xs).1 ≤ xs.length + C.weight s := by
  induction s, xs using run_induction (C := C) with
  | stuck s xs h => simp only [run_of_none h, Nat.le_refl]
  | next s xs s' ys h ih =>
      rw [run_of_some h]
      exact Nat.le_trans ih (Nat.le_of_lt (C.step_lt h))

/-! ## In pieces -/

/-- **Running on a prefix, then on what is left followed by the rest, is running on the whole.** -/
theorem run_append (s : σ) (xs zs : List α) :
    C.run s (xs ++ zs) = C.run (C.run s xs).1 ((C.run s xs).2 ++ zs) := by
  induction s, xs using run_induction (C := C) with
  | stuck s xs h => rw [run_of_none h]
  | next s xs s' ys h ih => rw [run_of_some h, run_of_some (C.step_append h zs), ih]

/-- What a step preserves, a run preserves. -/
theorem run_preserves {I : σ → Prop}
    (hstep : ∀ s xs s' ys, C.step s xs = some (s', ys) → I s → I s') {s : σ} (hs : I s)
    (xs : List α) : I (C.run s xs).1 := by
  induction s, xs using run_induction (C := C) with
  | stuck s xs h =>
      rw [run_of_none h]
      exact hs
  | next s xs s' ys h ih =>
      rw [run_of_some h]
      exact ih (hstep s xs s' ys h hs)

/-- **A consumer that goes on where another one stops.** If the steps of `C` are steps of `D`, a run of
`D` can be taken up where the run of `C` has ended. -/
theorem run_through {τ : Type*} {D : Consumer τ α} {f : σ → τ}
    (hstep : ∀ s xs s' ys, C.step s xs = some (s', ys) → D.step (f s) xs = some (f s', ys)) (s : σ)
    (xs : List α) : D.run (f s) xs = D.run (f (C.run s xs).1) (C.run s xs).2 := by
  induction s, xs using run_induction (C := C) with
  | stuck s xs h => rw [run_of_none h]
  | next s xs s' ys h ih => rw [run_of_some h, run_of_some (hstep s xs s' ys h), ih]

/-- What is stuck on some items was stuck before they came. -/
theorem step_nil_of_none {s : σ} {xs : List α} (h : C.step s xs = none) : C.step s [] = none := by
  cases hnil : C.step s [] with
  | none => rfl
  | some r =>
      have happ := @C.step_append _ _ r.1 r.2 hnil xs
      exact absurd (h.symm.trans happ) nofun

/-- Deliver one chunk: append it to what is left, then run. -/
def feed (C : Consumer σ α) (r : σ × List α) (chunk : List α) : σ × List α :=
  C.run r.1 (r.2 ++ chunk)

/-- **The cuts do not matter**: chunks fed one by one end where the whole stream ends. -/
theorem feed_run (s : σ) (xs : List α) (chunks : List (List α)) :
    chunks.foldl C.feed (C.run s xs) = C.run s (xs ++ chunks.flatten) := by
  induction chunks generalizing xs with
  | nil => simp
  | cons c cs ih =>
      rw [List.foldl_cons, feed, ← run_append, ih, List.flatten_cons, List.append_assoc]

/-- A state in which no items help. -/
def Final (C : Consumer σ α) (s : σ) : Prop := ∀ xs, C.step s xs = none

theorem run_of_final {s : σ} (h : C.Final s) (xs : List α) : C.run s xs = (s, xs) :=
  run_of_none (h xs)

/-! ## Reading one item after the other -/

section Collecting

variable {β : Type*} (read : List α → Option (β × List α))
  (happend : ∀ {xs v rest}, read xs = some (v, rest) → ∀ zs, read (xs ++ zs) = some (v, rest ++ zs))
  (hless : ∀ {xs v rest}, read xs = some (v, rest) → rest.length < xs.length)

/-- What a reader takes off the front of a queue, collected. -/
def collecting : Consumer (List β) α where
  step out xs := (read xs).map fun r => (out ++ [r.1], r.2)
  weight _ := 0
  step_append := by
    intro out xs out' ys h zs
    obtain ⟨⟨v, rest⟩, hread, heq⟩ := Option.map_eq_some_iff.mp h
    obtain ⟨rfl, rfl⟩ := Prod.mk.inj heq
    rw [happend hread zs, Option.map_some]
  step_lt := by
    intro out xs out' ys h
    obtain ⟨⟨v, rest⟩, hread, heq⟩ := Option.map_eq_some_iff.mp h
    obtain ⟨rfl, rfl⟩ := Prod.mk.inj heq
    exact hless hread

variable {read} {happend} {hless}

theorem collecting_of_read {xs rest : List α} {v : β} (h : read xs = some (v, rest)) (out : List β) :
    (collecting read happend hless).run out xs = (collecting read happend hless).run (out ++ [v]) rest := by
  have hstep : (collecting read happend hless).step out xs = some (out ++ [v], rest) := by
    show (read xs).map _ = _
    rw [h, Option.map_some]
  exact run_of_some hstep

/-- What has been collected stays. -/
theorem collecting_grows (out : List β) (xs : List α) :
    out <+: ((collecting read happend hless).run out xs).1 := by
  have hstep : ∀ (s : List β) (xs : List α) (s' : List β) (ys : List α),
      (collecting read happend hless).step s xs = some (s', ys) → out <+: s → out <+: s' := by
    intro s xs s' ys h hs
    obtain ⟨⟨v, rest⟩, -, heq⟩ := Option.map_eq_some_iff.mp h
    obtain ⟨rfl, -⟩ := Prod.mk.inj heq
    exact hs.trans (List.prefix_append _ _)
  exact run_preserves hstep (List.prefix_refl out) xs

/-- A part of a queue gives the first items of the queue. -/
theorem collecting_mono {xs ys : List α} (h : xs <+: ys) (out : List β) :
    ((collecting read happend hless).run out xs).1 <+: ((collecting read happend hless).run out ys).1 := by
  obtain ⟨zs, rfl⟩ := h
  rw [run_append]
  exact collecting_grows _ _

end Collecting

end Consumer

end LightNet.Foundation
