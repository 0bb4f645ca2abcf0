/-
# LightNet.Game.Scoreboard — the score of a match, without rooms, positions and datagrams.

A scoreboard has the life and the score of each player.  A move is what one step of the server may do
to it, together with the events that go out; it is labelled with the type of the packet and the player
that the packet speaks for, or with nothing for a tick.  What a match is supposed to be can be read off
here: a hit costs the target 25, a kill is counted on both sides, only the dead come back.
-/
import LightNet.Foundation.Tally
import LightNet.Game.Deeds
import Mathlib.Data.Nat.ModEq
import Mathlib.Logic.Function.Basic

namespace LightNet.Game

open LightNet.Foundation
open Function (update)

/-! ## One player -/

namespace Vitals

/-- A player that has just joined. -/
def fresh : Vitals := ⟨100, true, 0, 0⟩

/-- Hit, and alive. -/
def hurt (v : Vitals) : Vitals := { v with hp := v.hp - kFireDamage }

/-- Hit, and dead. -/
def killed (v : Vitals) : Vitals := { v with hp := 0, alive := false, deaths := v.deaths + 1 }

/-- One more kill. -/
def scored (v : Vitals) : Vitals := { v with kills := v.kills + 1 }

/-- Alive again. -/
def revived (v : Vitals) : Vitals := { v with hp := 100, alive := true }

/-- `hp` is one of 0, 25, 50, 75 and 100, and who has some is alive. -/
structure Sound (v : Vitals) : Prop where
  grid : v.hp.toNat % 25 = 0
  le : v.hp.toNat ≤ 100
  life : v.alive = true ↔ 0 < v.hp.toNat

/-- There are five values that `hp` can have. -/
theorem Sound.hp_mem {v : Vitals} (h : v.Sound) : v.hp ∈ [0, 25, 50, 75, 100] := by
  have hgrid := h.grid
  have hle := h.le
  have hcases : v.hp.toNat = 0 ∨ v.hp.toNat = 25 ∨ v.hp.toNat = 50 ∨ v.hp.toNat = 75
      ∨ v.hp.toNat = 100 := by omega
  simp only [List.mem_cons, List.not_mem_nil, or_false, ← UInt16.toNat_inj]
  exact hcases

theorem sound_fresh : fresh.Sound := ⟨rfl, le_refl _, by decide⟩

theorem Sound.scored {v : Vitals} (h : v.Sound) : v.scored.Sound := ⟨h.grid, h.le, h.life⟩

theorem sound_killed (v : Vitals) : v.killed.Sound := ⟨rfl, Nat.zero_le _, by simp [killed]⟩

theorem sound_revived (v : Vitals) : v.revived.Sound :=
  ⟨by simp [revived], by simp [revived], by simp [revived]⟩

theorem hurt_hp {v : Vitals} (h : kFireDamage < v.hp) : v.hurt.hp.toNat + 25 = v.hp.toNat := by
  have hle : kFireDamage ≤ v.hp := UInt16.le_of_lt h
  have hnat : (25 : Nat) < v.hp.toNat := UInt16.lt_iff_toNat_lt.mp h
  have hdamage : kFireDamage.toNat = 25 := rfl
  rw [hurt, UInt16.toNat_sub_of_le _ _ hle, hdamage]
  omega

theorem Sound.hurt {v : Vitals} (h : v.Sound) (hhp : kFireDamage < v.hp) : v.hurt.Sound := by
  have hnew := hurt_hp hhp
  have hgrid := h.grid
  have hle := h.le
  have hnat : (25 : Nat) < v.hp.toNat := UInt16.lt_iff_toNat_lt.mp hhp
  refine ⟨by omega, by omega, ?_⟩
  have hlife : v.alive = true := h.life.mpr (by omega)
  exact iff_of_true hlife (by omega)

/-- A shot that kills takes the last 25 from somebody who lives. -/
theorem Sound.last {v : Vitals} (h : v.Sound) (hlive : v.alive = true) (hhp : v.hp ≤ kFireDamage) :
    v.killed.hp.toNat + 25 = v.hp.toNat := by
  have hpos := h.life.mp hlive
  have hgrid := h.grid
  have hle : v.hp.toNat ≤ 25 := UInt16.le_iff_toNat_le.mp hhp
  have hzero : v.killed.hp.toNat = 0 := rfl
  omega

end Vitals

/-! ## All players -/

/-- The vitals of the players, by their ids. -/
abbrev Scoreboard := UInt32 → Option Vitals

namespace Scoreboard

/-- What a step is about: the type of a packet with the player that it speaks for, or nothing. -/
abbrev Label := Option (GameMsgType × Option UInt32)

/-- What one step may do to the scores, and the events that it announces. -/
inductive Move (label : Label) (s : Scoreboard) : Scoreboard → List GameEventPayload → Prop
  | rest : Move label s s []
  | enroll {p : UInt32} {who : Option UInt32} (hlabel : label = some (.kC2SJoin, who))
      (hfree : s p = none) : Move label s (update s p (some .fresh)) []
  | hit {p t : UInt32} {a b : Vitals} (hlabel : label = some (.kC2SFire, some p))
      (hshooter : s p = some a) (haim : a.alive = true) (htarget : s t = some b)
      (hlive : b.alive = true) (hne : t ≠ p) (hhp : kFireDamage < b.hp) :
      Move label s (update s t (some b.hurt)) [hitEvent t p]
  | kill {p t : UInt32} {a b : Vitals} (hlabel : label = some (.kC2SFire, some p))
      (hshooter : s p = some a) (haim : a.alive = true) (htarget : s t = some b)
      (hlive : b.alive = true) (hne : t ≠ p) (hhp : b.hp ≤ kFireDamage) :
      Move label s (update (update s t (some b.killed)) p (some a.scored))
        [hitEvent t p, killEvent t p]
  | revive {p : UInt32} {a : Vitals} (hlabel : label = some (.kC2SRespawn, some p))
      (hplayer : s p = some a) (hdead : a.alive = false) :
      Move label s (update s p (some a.revived)) [respawnEvent p]
  | refuse {p : UInt32} {a : Vitals} (hlabel : label = some (.kC2SRespawn, some p))
      (hplayer : s p = some a) : Move label s s [respawnEvent p]

/-- Every player on the board is sound. -/
def Sound (s : Scoreboard) : Prop := ∀ q v, s q = some v → v.Sound

/-- How much a player has, if it is there. -/
def hp (s : Scoreboard) (q : UInt32) : Option UInt16 := (s q).map Vitals.hp

/-- The player goes from alive to dead. -/
def Dies (s s' : Scoreboard) (q : UInt32) : Prop :=
  (s q).map Vitals.alive = some true ∧ (s' q).map Vitals.alive = some false

/-- The player goes from dead to alive, with 100. -/
def Revives (s s' : Scoreboard) (q : UInt32) : Prop :=
  (s q).map Vitals.alive = some false
    ∧ (s' q).map (fun v => (v.alive, v.hp)) = some (true, 100)

variable {label : Label} {s s' : Scoreboard} {evs : List GameEventPayload}

theorem Sound.update (h : Sound s) {q : UInt32} {v : Vitals} (hv : v.Sound) :
    Sound (update s q (some v)) := by
  intro q' v' hv'
  by_cases hq : q' = q
  · subst hq
    rw [Function.update_self] at hv'
    exact Option.some.inj hv' ▸ hv
  · rw [Function.update_of_ne hq] at hv'
    exact h q' v' hv'

theorem Move.sound (h : Move label s s' evs) (hs : Sound s) : Sound s' := by
  cases h with
  | rest => exact hs
  | enroll hlabel hfree => exact hs.update Vitals.sound_fresh
  | hit hlabel hshooter haim htarget hlive hne hhp =>
      exact hs.update ((hs _ _ htarget).hurt hhp)
  | kill hlabel hshooter haim htarget hlive hne hhp =>
      exact (hs.update (Vitals.sound_killed _)).update (hs _ _ hshooter).scored
  | revive hlabel hplayer hdead => exact hs.update (Vitals.sound_revived _)
  | refuse hlabel hplayer => exact hs

/-! ## Hits -/

theorem hp_update_of_ne {q t : UInt32} (hq : q ≠ t) (v : Option Vitals) :
    hp (Function.update s t v) q = hp s q := by
  rw [hp, hp, Function.update_of_ne hq]

/-- A shot that announces a hit takes 25 from its target and nothing from anybody else. -/
theorem Move.hp_of_hit (h : Move label s s' evs) (hs : Sound s) {ev : GameEventPayload}
    (hev : ev ∈ evs) (htype : ev.eventType = .kHit) :
    (∃ n n', hp s ev.targetId = some n ∧ hp s' ev.targetId = some n' ∧ n'.toNat + 25 = n.toNat)
      ∧ ∀ q, q ≠ ev.targetId → hp s' q = hp s q := by
  have hrespawn : ∀ p, ev ∈ [respawnEvent p] → False := by
    intro p hmem
    rw [List.mem_singleton.mp hmem] at htype
    exact kRespawn_ne_kHit htype
  cases h with
  | rest => exact absurd hev List.not_mem_nil
  | enroll hlabel hfree => exact absurd hev List.not_mem_nil
  | @hit p t a b hlabel hshooter haim htarget hlive hne hhp =>
      obtain rfl : ev = hitEvent t p := List.mem_singleton.mp hev
      rw [hitEvent_targetId]
      refine ⟨⟨b.hp, b.hurt.hp, ?_, ?_, Vitals.hurt_hp hhp⟩, fun q hq => hp_update_of_ne hq _⟩
      · rw [hp, htarget, Option.map_some]
      · rw [hp, Function.update_self, Option.map_some]
  | @kill p t a b hlabel hshooter haim htarget hlive hne hhp =>
      obtain rfl : ev = hitEvent t p := by
        rcases List.mem_cons.mp hev with heq | hmem
        · exact heq
        · rw [List.mem_singleton.mp hmem] at htype
          exact absurd htype kHit_ne_kKill.symm
      rw [hitEvent_targetId]
      refine ⟨⟨b.hp, b.killed.hp, ?_, ?_, (hs _ _ htarget).last hlive hhp⟩, ?_⟩
      · rw [hp, htarget, Option.map_some]
      · rw [hp, Function.update_of_ne hne, Function.update_self, Option.map_some]
      · -- the score of the shooter is no part of its `hp`
        intro q hq
        by_cases hqp : q = p
        · subst hqp
          rw [hp, hp, Function.update_self, hshooter]
          rfl
        · rw [hp_update_of_ne hqp, hp_update_of_ne hq]
  | revive hlabel hplayer hdead => exact (hrespawn _ hev).elim
  | refuse hlabel hplayer => exact (hrespawn _ hev).elim

/-- The manager's copy of the damage is the room's. -/
theorem Move.value_of_hit (h : Move label s s' evs) {ev : GameEventPayload} (hev : ev ∈ evs)
    (htype : ev.eventType = .kHit) : ev.value = -25 := by
  cases h with
  | rest => exact absurd hev List.not_mem_nil
  | enroll hlabel hfree => exact absurd hev List.not_mem_nil
  | hit hlabel hshooter haim htarget hlive hne hhp =>
      rw [List.mem_singleton.mp hev]
      rfl
  | kill hlabel hshooter haim htarget hlive hne hhp =>
      rcases List.mem_cons.mp hev with heq | hmem
      · rw [heq]
        rfl
      · rw [List.mem_singleton.mp hmem] at htype
        exact absurd htype kHit_ne_kKill.symm
  | revive hlabel hplayer hdead =>
      rw [List.mem_singleton.mp hev] at htype
      exact absurd htype kRespawn_ne_kHit
  | refuse hlabel hplayer =>
      rw [List.mem_singleton.mp hev] at htype
      exact absurd htype kRespawn_ne_kHit

/-- A shot that announces no hit takes nothing from anybody. -/
theorem Move.hp_of_miss {who : Option UInt32} (h : Move (some (.kC2SFire, who)) s s' evs)
    (hmiss : ∀ ev ∈ evs, ev.eventType ≠ .kHit) (q : UInt32) : hp s' q = hp s q := by
  have hother : ∀ {type : GameMsgType} {who' : Option UInt32},
      (some (GameMsgType.kC2SFire, who) : Label) = some (type, who') → type = .kC2SFire := by
    intro type who' heq
    exact (congrArg Prod.fst (Option.some.inj heq)).symm
  cases h with
  | rest => rfl
  | enroll hlabel hfree => exact absurd (hother hlabel) (by decide)
  | hit hlabel hshooter haim htarget hlive hne hhp =>
      exact absurd rfl (hmiss _ List.mem_cons_self)
  | kill hlabel hshooter haim htarget hlive hne hhp =>
      exact absurd rfl (hmiss _ List.mem_cons_self)
  | revive hlabel hplayer hdead => exact absurd (hother hlabel) (by decide)
  | refuse hlabel hplayer => rfl

/-! ## Kills -/

/-- What a kill event says: the target, and the shooter as `extra`. -/
theorem Move.of_kill (h : Move label s s' evs) {ev : GameEventPayload} (hev : ev ∈ evs)
    (htype : ev.eventType = .kKill) :
    Dies s s' ev.targetId ∧ ev.extra ≠ ev.targetId
      ∧ (s ev.extra).map Vitals.alive = some true ∧ (s' ev.extra).map Vitals.alive = some true
      ∧ label = some (.kC2SFire, some ev.extra) := by
  have hsingle : ∀ ev', ev'.eventType ≠ .kKill → ev ∈ [ev'] → False := by
    intro ev' hne hmem
    rw [List.mem_singleton.mp hmem] at htype
    exact hne htype
  cases h with
  | rest => exact absurd hev List.not_mem_nil
  | enroll hlabel hfree => exact absurd hev List.not_mem_nil
  | hit hlabel hshooter haim htarget hlive hne hhp => exact (hsingle _ kHit_ne_kKill hev).elim
  | @kill p t a b hlabel hshooter haim htarget hlive hne hhp =>
      obtain rfl : ev = killEvent t p := by
        rcases List.mem_cons.mp hev with heq | hmem
        · rw [heq] at htype
          exact absurd htype kHit_ne_kKill
        · exact List.mem_singleton.mp hmem
      rw [killEvent_targetId, killEvent_extra]
      refine ⟨⟨?_, ?_⟩, hne.symm, ?_, ?_, hlabel⟩
      · rw [htarget, Option.map_some, hlive]
      · rw [Function.update_of_ne hne, Function.update_self]
        rfl
      · rw [hshooter, Option.map_some, haim]
      · rw [Function.update_self]
        exact congrArg some haim
  | revive hlabel hplayer hdead => exact (hsingle _ kRespawn_ne_kKill hev).elim
  | refuse hlabel hplayer => exact (hsingle _ kRespawn_ne_kKill hev).elim

theorem not_dies_update {q t : UInt32} {v : Vitals} (hv : v.alive = true) :
    (∀ q, ¬Dies s s q) → ¬Dies s (Function.update s t (some v)) q := by
  rintro hself ⟨hbefore, hafter⟩
  by_cases hq : q = t
  · subst hq
    rw [Function.update_self, Option.map_some, hv] at hafter
    cases hafter
  · rw [Function.update_of_ne hq] at hafter
    exact hself q ⟨hbefore, hafter⟩

theorem not_dies_self (s : Scoreboard) (q : UInt32) : ¬Dies s s q := by
  rintro ⟨hbefore, hafter⟩
  rw [hbefore] at hafter
  cases hafter

/-- Nobody dies without a kill event. -/
theorem Move.of_dies (h : Move label s s' evs) {t : UInt32} (hdies : Dies s s' t) :
    ∃ ev ∈ evs, ev.eventType = .kKill ∧ ev.targetId = t := by
  cases h with
  | rest => exact absurd hdies (not_dies_self s t)
  | enroll hlabel hfree => exact absurd hdies (not_dies_update rfl (not_dies_self s))
  | hit hlabel hshooter haim htarget hlive hne hhp =>
      exact absurd hdies (not_dies_update hlive (not_dies_self s))
  | @kill p t' a b hlabel hshooter haim htarget hlive hne hhp =>
      refine ⟨killEvent t' p, List.mem_cons_of_mem _ List.mem_cons_self, rfl, ?_⟩
      show t' = t
      -- nobody else has changed from alive to dead, and the shooter lives on
      by_contra hother
      obtain ⟨hbefore, hafter⟩ := hdies
      by_cases htp : t = p
      · subst htp
        rw [Function.update_self, Option.map_some] at hafter
        exact absurd (Option.some.inj hafter) (by simp [Vitals.scored, haim])
      · rw [Function.update_of_ne htp, Function.update_of_ne (Ne.symm hother)] at hafter
        exact not_dies_self s t ⟨hbefore, hafter⟩
  | revive hlabel hplayer hdead => exact absurd hdies (not_dies_update rfl (not_dies_self s))
  | refuse hlabel hplayer => exact absurd hdies (not_dies_self s t)

/-- How many of some events are kills. -/
def killCount (evs : List GameEventPayload) : Nat :=
  evs.countP fun ev => decide (ev.eventType = .kKill)

/-! ## Respawns -/

/-- Nobody comes back without a respawn event. -/
theorem Move.of_revives (h : Move label s s' evs) {t : UInt32} (hrevives : Revives s s' t) :
    ∃ ev ∈ evs, ev.eventType = .kRespawn ∧ ev.value = 100 ∧ ev.targetId = t := by
  obtain ⟨hbefore, hafter⟩ := hrevives
  have hchanged : ∀ {s' : Scoreboard}, (s' t).map (fun v => (v.alive, v.hp)) = some (true, 100) →
      s' t ≠ s t := by
    intro s' hafter heq
    rw [heq] at hafter
    obtain ⟨v, hv, hpair⟩ := Option.map_eq_some_iff.mp hafter
    rw [hv, Option.map_some] at hbefore
    exact absurd ((congrArg Prod.fst hpair).symm.trans (Option.some.inj hbefore)) (by decide)
  cases h with
  | rest => exact absurd rfl (hchanged hafter)
  | @enroll p who hlabel hfree =>
      -- who has just joined was not dead before
      by_cases ht : t = p
      · subst ht
        rw [hfree] at hbefore
        cases hbefore
      · exact absurd (Function.update_of_ne ht _ _) (hchanged hafter)
  | @hit p u a b hlabel hshooter haim htarget hlive hne hhp =>
      by_cases ht : t = u
      · subst ht
        rw [htarget, Option.map_some, hlive] at hbefore
        cases hbefore
      · exact absurd (Function.update_of_ne ht _ _) (hchanged hafter)
  | @kill p u a b hlabel hshooter haim htarget hlive hne hhp =>
      by_cases htp : t = p
      · subst htp
        rw [hshooter, Option.map_some, haim] at hbefore
        cases hbefore
      by_cases ht : t = u
      · subst ht
        rw [htarget, Option.map_some, hlive] at hbefore
        cases hbefore
      · refine absurd ?_ (hchanged hafter)
        rw [Function.update_of_ne htp, Function.update_of_ne ht]
  | @revive p a hlabel hplayer hdead =>
      refine ⟨respawnEvent p, List.mem_singleton_self _, rfl, rfl, ?_⟩
      by_contra ht
      exact absurd (Function.update_of_ne (Ne.symm ht) _ _) (hchanged hafter)
  | refuse hlabel hplayer => exact absurd rfl (hchanged hafter)

/-! ## The sums of a scoreboard -/

/-- What each player counts for. -/
def countOf (g : Vitals → Nat) (s : Scoreboard) (q : UInt32) : Option Nat := (s q).map g

variable {g : Vitals → Nat} {q : UInt32} {v w : Vitals}

theorem countOf_update (g : Vitals → Nat) (s : Scoreboard) (q : UInt32) (v : Vitals) :
    countOf g (update s q (some v)) = update (countOf g s) q (some (g v)) := by
  funext q'
  by_cases hq : q' = q
  · subst hq
    rw [countOf, Function.update_self, Function.update_self, Option.map_some]
  · rw [countOf, Function.update_of_ne hq, Function.update_of_ne hq, countOf]

/-- A change of a player that does not change its count. -/
theorem countOf_update_same (hq : s q = some v) (hw : g w = g v) :
    countOf g (update s q (some w)) = countOf g s := by
  rw [countOf_update, hw, Function.update_eq_self_iff, countOf, hq, Option.map_some]

theorem toNat_succ_modEq (n : UInt16) : (n + 1).toNat ≡ n.toNat + 1 [MOD 2 ^ 16] := by
  rw [UInt16.toNat_add]
  exact Nat.mod_modEq _ _

variable {ν : Type} {f : ν → Nat} {t t' : UnorderedMap UInt32 ν}

/-! ## Sums -/

theorem tally_update_succ {n : UInt16} {k : Nat}
    (hq : UnorderedMap.counts f t q = some n.toNat)
    (h : UnorderedMap.counts f t' = update (UnorderedMap.counts f t) q (some (n + 1).toNat))
    (ht : UnorderedMap.tally f t ≡ k [MOD 2 ^ 16]) :
    UnorderedMap.tally f t' ≡ k + 1 [MOD 2 ^ 16] := by
  have hsum := UnorderedMap.tally_update h
  rw [hq, Option.getD_some] at hsum
  have hnext := toNat_succ_modEq n
  unfold Nat.ModEq at *
  omega

/-- Where nothing is counted, the sum stays. -/
theorem tally_of_same {k : Nat} (h : UnorderedMap.counts f t' = UnorderedMap.counts f t)
    (ht : UnorderedMap.tally f t ≡ k [MOD 2 ^ 16]) : UnorderedMap.tally f t' ≡ k [MOD 2 ^ 16] := by
  rwa [UnorderedMap.tally_congr h]

/-- A new player counts for nothing. -/
theorem tally_of_enroll {k : Nat} (hq : UnorderedMap.counts f t q = none)
    (h : UnorderedMap.counts f t' = update (UnorderedMap.counts f t) q (some 0))
    (ht : UnorderedMap.tally f t ≡ k [MOD 2 ^ 16]) : UnorderedMap.tally f t' ≡ k [MOD 2 ^ 16] := by
  have hsum := UnorderedMap.tally_update h
  rw [hq, Option.getD_none] at hsum
  rwa [show UnorderedMap.tally f t' = UnorderedMap.tally f t by omega]

/-- The kills of a player. -/
def killsOf (s : Scoreboard) : UInt32 → Option Nat := countOf (fun v => v.kills.toNat) s
/-- The deaths of a player. -/
def deathsOf (s : Scoreboard) : UInt32 → Option Nat := countOf (fun v => v.deaths.toNat) s

/-- A change of a player that touches neither count. -/
theorem books_update_same (hq : s q = some v) (hkills : w.kills = v.kills)
    (hdeaths : w.deaths = v.deaths) :
    killsOf (update s q (some w)) = killsOf s ∧ deathsOf (update s q (some w)) = deathsOf s :=
  ⟨countOf_update_same hq (congrArg UInt16.toNat hkills),
    countOf_update_same hq (congrArg UInt16.toNat hdeaths)⟩

/-- **Every move keeps the books**: both sums go up with the kills that it announces. -/
theorem Move.ledger (h : Move label s s' evs) {kills deaths : ν → Nat}
    (hkills : UnorderedMap.counts kills t = killsOf s)
    (hdeaths : UnorderedMap.counts deaths t = deathsOf s)
    (hkills' : UnorderedMap.counts kills t' = killsOf s')
    (hdeaths' : UnorderedMap.counts deaths t' = deathsOf s') {k : Nat}
    (hk : UnorderedMap.tally kills t ≡ k [MOD 2 ^ 16])
    (hd : UnorderedMap.tally deaths t ≡ k [MOD 2 ^ 16]) :
    UnorderedMap.tally kills t' ≡ k + killCount evs [MOD 2 ^ 16]
      ∧ UnorderedMap.tally deaths t' ≡ k + killCount evs [MOD 2 ^ 16] := by
  -- a move that touches neither count, and announces no kill
  have hquiet : killsOf s' = killsOf s ∧ deathsOf s' = deathsOf s → killCount evs = 0 →
      UnorderedMap.tally kills t' ≡ k + killCount evs [MOD 2 ^ 16]
        ∧ UnorderedMap.tally deaths t' ≡ k + killCount evs [MOD 2 ^ 16] := by
    rintro ⟨hsame, hsame'⟩ hnone
    rw [hnone, Nat.add_zero]
    exact ⟨tally_of_same (hkills'.trans (hsame.trans hkills.symm)) hk,
      tally_of_same (hdeaths'.trans (hsame'.trans hdeaths.symm)) hd⟩
  cases h with
  | rest => exact hquiet ⟨rfl, rfl⟩ rfl
  | @enroll p who hlabel hfree =>
      rw [killsOf, countOf_update, ← killsOf, ← hkills] at hkills'
      rw [deathsOf, countOf_update, ← deathsOf, ← hdeaths] at hdeaths'
      refine ⟨tally_of_enroll (q := p) ?_ hkills' hk, tally_of_enroll (q := p) ?_ hdeaths' hd⟩
      · rw [hkills, killsOf, countOf, hfree, Option.map_none]
      · rw [hdeaths, deathsOf, countOf, hfree, Option.map_none]
  | hit hlabel hshooter haim htarget hlive hne hhp =>
      exact hquiet (books_update_same htarget rfl rfl) rfl
  | @kill p u a b hlabel hshooter haim htarget hlive hne hhp =>
      have hshooter' : update s u (some b.killed) p = some a := by
        rw [Function.update_of_ne hne.symm, hshooter]
      constructor
      · -- the shooter's kills go up, and the target keeps its own
        have hvictim : killsOf (update s u (some b.killed)) = killsOf s :=
          countOf_update_same htarget rfl
        rw [killsOf, countOf_update, ← killsOf, hvictim, ← hkills] at hkills'
        refine tally_update_succ (q := p) (n := a.kills) ?_ hkills' hk
        rw [hkills, killsOf, countOf, hshooter, Option.map_some]
      · have hkiller : deathsOf (update (update s u (some b.killed)) p (some a.scored))
            = deathsOf (update s u (some b.killed)) := countOf_update_same hshooter' rfl
        rw [hkiller, deathsOf, countOf_update, ← deathsOf, ← hdeaths] at hdeaths'
        refine tally_update_succ (q := u) (n := b.deaths) ?_ hdeaths' hd
        rw [hdeaths, deathsOf, countOf, htarget, Option.map_some]
  | revive hlabel hplayer hdead => exact hquiet (books_update_same hplayer rfl rfl) rfl
  | refuse hlabel hplayer => exact hquiet ⟨rfl, rfl⟩ rfl

end Scoreboard

end LightNet.Game
