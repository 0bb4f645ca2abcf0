/-
# LightNet.Foundation.Lossy — parties over a network that gives no guarantee.

The parties are one state `σ`; a label says which of them acts, and what it sends is added to the
datagrams that have ever been sent.  The network may deliver each of these at any time, in any order,
any number of times or never, so that nothing is taken out when it is delivered.  The only condition on
a step is that what it delivers has been sent.
-/
import LightNet.Foundation.Run

namespace LightNet.Foundation

variable {σ ι μ : Type*}

/-- The parties, and whatever has been sent. -/
structure Lossy (σ μ : Type*) where
  parties : σ
  sent : List μ := []

namespace Lossy

/-- A step: what `react` sends is sent. -/
def step (react : σ → ι → List μ × σ) (n : Lossy σ μ) (i : ι) : Lossy σ μ where
  parties := (react n.parties i).2
  sent := n.sent ++ (react n.parties i).1

/-- What a step delivers has been sent. -/
def Enabled (delivers : ι → Option μ) (n : Lossy σ μ) (i : ι) : Prop :=
  ∀ d ∈ delivers i, d ∈ n.sent

instance [DecidableEq μ] (delivers : ι → Option μ) (n : Lossy σ μ) (i : ι) :
    Decidable (Enabled delivers n i) :=
  inferInstanceAs (Decidable (∀ d ∈ delivers i, d ∈ n.sent))

section

variable {react : σ → ι → List μ × σ} {delivers : ι → Option μ}

/-- What the parties keep to, and what they have said, in one. -/
def Sound (Inv : σ → Prop) (Ok : σ → μ → Prop) (n : Lossy σ μ) : Prop :=
  Inv n.parties ∧ ∀ d ∈ n.sent, Ok n.parties d

variable {Inv : σ → Prop} {Ok : σ → μ → Prop}

/-- **One step.** The parties keep `Inv` while they are told nothing but what is `Ok`, they say nothing
else, and what has once been `Ok` stays so. -/
theorem Sound.step
    (hreact : ∀ s i, Inv s → (∀ d ∈ delivers i, Ok s d) →
      Inv (react s i).2 ∧ (∀ d, Ok s d → Ok (react s i).2 d) ∧ ∀ d ∈ (react s i).1, Ok (react s i).2 d)
    {n : Lossy σ μ} (h : Sound Inv Ok n) {i : ι} (hi : Enabled delivers n i) :
    Sound Inv Ok (step react n i) := by
  obtain ⟨hinv, hkeep, hsay⟩ := hreact n.parties i h.1 fun d hd => h.2 d (hi d hd)
  refine ⟨hinv, fun d hd => ?_⟩
  rcases List.mem_append.mp hd with hold | hnew
  · exact hkeep d (h.2 d hold)
  · exact hsay d hnew

/-- **Network rule.** The same of a whole run, whatever the network does. -/
theorem sound_run
    (hreact : ∀ s i, Inv s → (∀ d ∈ delivers i, Ok s d) →
      Inv (react s i).2 ∧ (∀ d, Ok s d → Ok (react s i).2 d) ∧ ∀ d ∈ (react s i).1, Ok (react s i).2 d)
    {n : Lossy σ μ} {is : List ι} (h : Sound Inv Ok n)
    (hok : Admissible (Lossy.step react) (Enabled delivers) n is) :
    Sound Inv Ok (run (Lossy.step react) n is) :=
  run_invariant (fun _ _ hn hi => hn.step hreact hi) h hok

end

end Lossy

end LightNet.Foundation
