/-
# LightNet.Foundation.Loop — loops that may go on for ever.

One turn of a loop either stops with an answer or says where to go on.  `Settles` is that finitely
many turns stop.  Two rules decide it: a turn that goes on to a state that settles settles, and a set
of states that is never left does not.
-/
import Mathlib.Data.Nat.Init

namespace LightNet.Foundation

/-- What one turn of a loop does. -/
inductive Turn (σ ρ : Type*) where
  | again (s : σ)
  | stop (r : ρ)

namespace Turn

variable {σ ρ : Type*} (turn : σ → Turn σ ρ)

/-- At most `n` turns: the answer, if the loop has stopped. -/
def turns : Nat → σ → Option ρ
  | 0, _ => none
  | n + 1, s =>
      match turn s with
      | again s' => turns n s'
      | stop r => some r

/-- The loop stops after finitely many turns. -/
def Settles (s : σ) : Prop := ∃ n, (turns turn n s).isSome

variable {turn}

theorem settles_of_stop {s : σ} {r : ρ} (h : turn s = stop r) : Settles turn s :=
  ⟨1, by simp [turns, h]⟩

theorem settles_of_again {s s' : σ} (h : turn s = again s') (hs : Settles turn s') :
    Settles turn s := by
  obtain ⟨n, hn⟩ := hs
  exact ⟨n + 1, by simpa [turns, h] using hn⟩

theorem settles_iff_of_again {s s' : σ} (h : turn s = again s') :
    Settles turn s ↔ Settles turn s' := by
  constructor
  · rintro ⟨n, hn⟩
    cases n with
    | zero => exact absurd hn (by simp [turns])
    | succ n => exact ⟨n, by simpa [turns, h] using hn⟩
  · intro hs
    exact settles_of_again h hs

/-- **A set of states that every turn stays in never settles.** -/
theorem not_settles {P : σ → Prop} (hturn : ∀ s, P s → ∃ s', turn s = again s' ∧ P s') {s : σ}
    (hs : P s) : ¬ Settles turn s := by
  rintro ⟨n, hn⟩
  -- on the number of turns: the first one goes on, inside `P`, with one turn less to go
  induction n generalizing s with
  | zero => exact absurd hn (by simp [turns])
  | succ n ih =>
      obtain ⟨s', hagain, hs'⟩ := hturn s hs
      exact ih hs' (by simpa [turns, hagain] using hn)

end Turn

end LightNet.Foundation
