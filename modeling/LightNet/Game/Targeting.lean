/-
# LightNet.Game.Targeting — who is hit.

A shot is a ray from the shooter.  A player is hit at the chest, if the chest is close enough to the
ray, not too near and within range; of several such players it is the nearest one.  The loop over the
players takes them in the order of a hash table, and the outcome does not depend on it.
-/
import LightNet.Foundation.Nearest
import LightNet.Game.Exact

namespace LightNet.Game

open LightNet.Foundation LightNet.Net
open FloatArith (lt le)

/-! ## A ray and a player -/

namespace GamePlayer

/-- The player counts for the ray, at whatever distance: it is alive and not the shooter, it is not too
near, and its chest is close to the ray. -/
structure OnRay (player shooter : GamePlayer ℝ) (fire : GameFirePayload ℝ) : Prop where
  alive : player.alive = true
  other : player.playerId ≠ shooter.playerId
  not_near : 0.5 ≤ player.along fire
  close : dist player.chest (fire.origin + player.along fire • fire.dir) ≤ kHitRadius

/-- The player can be hit. -/
structure Eligible (player shooter : GamePlayer ℝ) (fire : GameFirePayload ℝ) : Prop
    extends player.OnRay shooter fire where
  in_range : player.along fire < kMaxHitRange

noncomputable instance (player shooter : GamePlayer ℝ) (fire : GameFirePayload ℝ) :
    Decidable (player.OnRay shooter fire) := Classical.propDecidable _

theorem along_eq (player : GamePlayer ℝ) (fire : GameFirePayload ℝ) :
    player.along fire = (player.x - fire.originX) * fire.dirX
      + (player.y + 1.0 - fire.originY) * fire.dirY + (player.z - fire.originZ) * fire.dirZ := by
  rw [along, chest, GameFirePayload.origin, GameFirePayload.dir, point_sub, inner_point]
  norm_num

/-- The chest and the point of the ray at `t`. -/
theorem dist_chest (player : GamePlayer ℝ) (fire : GameFirePayload ℝ) (t : ℝ) :
    dist player.chest (fire.origin + t • fire.dir)
      = √((player.x - (fire.originX + fire.dirX * t)) * (player.x - (fire.originX + fire.dirX * t))
        + (player.y + 1.0 - (fire.originY + fire.dirY * t))
          * (player.y + 1.0 - (fire.originY + fire.dirY * t))
        + (player.z - (fire.originZ + fire.dirZ * t))
          * (player.z - (fire.originZ + fire.dirZ * t))) := by
  rw [dist_eq_norm, chest, GameFirePayload.origin, GameFirePayload.dir, smul_point, point_add,
    point_sub, norm_point, mul_comm t, mul_comm t, mul_comm t]
  norm_num

end GamePlayer

/-! ## The loop -/

namespace GameRoom

/-- **One turn of the loop**, as long as what is remembered is within range. -/
theorem considerTarget_exact (shooter : GamePlayer ℝ) (fire : GameFirePayload ℝ)
    {best : Option UInt32 × ℝ} (hbest : best.2 ≤ kMaxHitRange) (entry : UInt32 × GamePlayer ℝ) :
    considerTarget shooter fire best entry
      = nearer (fun entry => entry.2.OnRay shooter fire) Prod.fst (fun entry => entry.2.along fire)
        best entry := by
  obtain ⟨key, player⟩ := entry
  unfold considerTarget nearer
  dsimp only
  rw [← GamePlayer.along_eq, sqrt_exact, ← GamePlayer.dist_chest]
  simp only [lt_exact, le_exact]
  split
  · rename_i hskip
    rw [if_neg]
    rintro ⟨hray, -⟩
    simp only [Bool.or_eq_true, decide_eq_true_eq, Bool.not_eq_true'] at hskip
    rcases hskip with hself | hdead
    · exact hray.other hself
    · rw [hray.alive] at hdead
      cases hdead
  rename_i hskip
  split
  · rename_i hout
    rw [if_neg]
    rintro ⟨hray, hnearer⟩
    simp only [Bool.or_eq_true, decide_eq_true_eq] at hout
    rcases hout with hnear | hfar
    · exact hnear.not_ge hray.not_near
    · exact (hfar.trans hnearer).not_ge hbest
  rename_i hout
  simp only [Bool.or_eq_true, decide_eq_true_eq, Bool.not_eq_true', not_or, Bool.not_eq_false,
    not_lt] at hskip hout
  refine if_congr ?_ rfl rfl
  rw [Bool.and_eq_true, decide_eq_true_eq, decide_eq_true_eq]
  exact and_congr_left fun _ => ⟨fun hclose => ⟨hskip.2, hskip.1, hout.1, hclose⟩, (·.close)⟩

/-- What the loop has found: nobody, who can be hit, or a nearest one. -/
theorem findHitTarget_cases (ord : IterOrder UInt32) (room : GameRoom ℝ) (shooter : GamePlayer ℝ)
    (fire : GameFirePayload ℝ) :
    room.findHitTarget ord shooter fire = none
        ∧ (∀ q player, room.findPlayer q = some player → ¬player.Eligible shooter fire)
      ∨ ∃ q target, room.findHitTarget ord shooter fire = some q
        ∧ room.findPlayer q = some target ∧ target.Eligible shooter fire
        ∧ ∀ q' player, room.findPlayer q' = some player → player.Eligible shooter fire →
          target.along fire ≤ player.along fire := by
  have hmem : ∀ q player, (q, player) ∈ UnorderedMap.iterate ord room.players
      ↔ room.findPlayer q = some player := fun q player =>
    (UnorderedMap.iterate_perm ord room.players).mem_iff.trans UnorderedMap.mem_pairs_iff
  have hnearest := nearest_foldl (fun best entry hbest => considerTarget_exact shooter fire hbest entry)
    (UnorderedMap.iterate ord room.players)
  rw [findHitTarget]
  generalize (UnorderedMap.iterate ord room.players).foldl (considerTarget shooter fire)
    (none, kMaxHitRange) = best at hnearest
  cases hnearest with
  | nobody hnone =>
      refine .inl ⟨rfl, fun q player hplayer heligible => ?_⟩
      have hfar := hnone (q, player) ((hmem q player).mpr hplayer) heligible.toOnRay
      exact hfar.not_gt heligible.in_range
  | @found entry hentry hray hrange hmin =>
      refine .inr ⟨entry.1, entry.2, rfl, (hmem entry.1 entry.2).mp hentry,
        { hray with in_range := hrange }, fun q' player hplayer heligible => ?_⟩
      exact hmin (q', player) ((hmem q' player).mpr hplayer) heligible.toOnRay

/-- The only player that can be hit is hit. -/
theorem findHitTarget_of_only {ord : IterOrder UInt32} {room : GameRoom ℝ} {shooter : GamePlayer ℝ}
    {fire : GameFirePayload ℝ} {q : UInt32} {target : GamePlayer ℝ}
    (htarget : room.findPlayer q = some target) (heligible : target.Eligible shooter fire)
    (honly : ∀ q' player, room.findPlayer q' = some player → player.Eligible shooter fire → q' = q) :
    room.findHitTarget ord shooter fire = some q := by
  obtain ⟨-, hnone⟩ | ⟨q', target', hfound, htarget', heligible', -⟩ :=
    findHitTarget_cases ord room shooter fire
  · exact absurd heligible (hnone q target htarget)
  · rw [hfound, honly q' target' htarget' heligible']

/-- **The nearest eligible player is hit.** `find_hit_target` finds nobody exactly when nobody is
eligible, and otherwise an eligible player with the smallest distance along the ray, in whatever order
the hash table is walked through. -/
theorem hits_nearest (ord : IterOrder UInt32) (room : GameRoom ℝ) (shooter : GamePlayer ℝ)
    (fire : GameFirePayload ℝ) :
    (room.findHitTarget ord shooter fire = none
        ↔ ∀ q player, room.findPlayer q = some player → ¬player.Eligible shooter fire)
      ∧ ∀ q, room.findHitTarget ord shooter fire = some q →
        ∃ target, room.findPlayer q = some target ∧ target.Eligible shooter fire
          ∧ ∀ q' player, room.findPlayer q' = some player → player.Eligible shooter fire →
            target.along fire ≤ player.along fire := by
  obtain ⟨hmiss, hnone⟩ | ⟨p, target, hfound, htarget, heligible, hmin⟩ :=
    findHitTarget_cases ord room shooter fire
  · rw [hmiss]
    exact ⟨iff_of_true rfl hnone, nofun⟩
  · rw [hfound]
    refine ⟨iff_of_false nofun fun hnone => hnone p target htarget heligible, ?_⟩
    rintro q ⟨⟩
    exact ⟨target, htarget, heligible, hmin⟩

end GameRoom

end LightNet.Game
