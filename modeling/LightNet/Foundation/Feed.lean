/-
# LightNet.Foundation.Feed — one feed for many listeners.

A sequencer passes its announcements on to whoever listens, to each in a form of its own.  If in every
step the listeners hear the same announcements, then so they do in a whole run: two that are there from
its beginning to its end hear the same things in the same order.
-/
import LightNet.Foundation.Run

namespace LightNet.Foundation

variable {σ ι α δ μ : Type*}

/-- A run says what its steps say, one after the other. -/
inductive Said (step : σ → ι → σ) (Says : σ → ι → List α → Prop) : σ → List ι → List α → Prop
  | nil (s : σ) : Said step Says s [] []
  | cons {s : σ} {i : ι} {is : List ι} {feed rest : List α} (h : Says s i feed)
      (hrest : Said step Says (step s i) is rest) : Said step Says s (i :: is) (feed ++ rest)

/-- **One feed.** `There l s` says that the listener `l` is there in the state `s`, and `form l` is the
form in which it hears an announcement, if it hears any.  Whoever stays there hears the feed of the run. -/
theorem one_feed {step : σ → ι → σ} {Inv : σ → Prop} {There : μ → σ → Prop} {heard : μ → σ → ι → List δ}
    {form : μ → α → Option δ} {Says : σ → ι → List α → Prop} (hinv : ∀ s i, Inv s → Inv (step s i))
    (hstep : ∀ s i, Inv s → ∃ feed, Says s i feed
      ∧ ∀ l, There l (step s i) → heard l s i = feed.filterMap (form l))
    {s : σ} (hs : Inv s) (is : List ι) :
    ∃ feed, Said step Says s is feed ∧ ∀ l, (∀ part, part <+: is → There l (run step s part)) →
      (outputs step (heard l) s is).flatten = feed.filterMap (form l) := by
  induction is generalizing s with
  | nil => exact ⟨[], .nil s, fun _ _ => rfl⟩
  | cons i is ih =>
      obtain ⟨feed, hsays, hhear⟩ := hstep s i hs
      obtain ⟨rest, hsaid, hrest⟩ := ih (hinv s i hs)
      refine ⟨feed ++ rest, .cons hsays hsaid, fun l hthere => ?_⟩
      have hnow : There l (step s i) :=
        hthere [i] (List.cons_prefix_cons.mpr ⟨rfl, List.nil_prefix⟩)
      have hlater : ∀ part, part <+: is → There l (run step (step s i) part) :=
        fun part hpart => hthere (i :: part) (List.cons_prefix_cons.mpr ⟨rfl, hpart⟩)
      rw [outputs, List.flatten_cons, hhear l hnow, hrest l hlater, List.filterMap_append]

end LightNet.Foundation
