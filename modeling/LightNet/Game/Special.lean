/-
# LightNet.Game.Special — positions that are not finite.

The decoder lets every pattern of bits through, and so a client can report a position at infinity or
nowhere.  With NaN in it the distance is NaN, no comparison holds, and the player stays.  At infinity
without NaN the distance is infinite, and the step that is cut to the allowance is zero times infinity.
-/
import LightNet.Foundation.Extended
import LightNet.Game.Course

namespace LightNet.Game

open LightNet.Foundation LightNet.Net
open LightNet.Foundation.Extended (finite inf nan)
open GameRoomManager (tickSeconds)

noncomputable instance : FloatArith Extended where
  sqrt := Extended.sqrt
  sin := Extended.sin
  cos := Extended.cos
  lt := Extended.lt
  le := Extended.le

/-! ## One player -/

/-- The position that the input reports leaves the player at a finite one: it reports none, or has no
coordinate at infinity, or has one that is NaN. -/
def GameInputPayload.Harmless (input : GameInputPayload Extended) : Prop :=
  input.hasPos = 0 ∨ (∀ a ∈ [input.posX, input.posY, input.posZ], ∀ s, a ≠ inf s)
    ∨ nan ∈ [input.posX, input.posY, input.posZ]

namespace GamePlayer

/-- The player is at a finite position. -/
structure Placed (player : GamePlayer Extended) : Prop where
  x : player.x.IsFinite
  y : player.y.IsFinite
  z : player.z.IsFinite

variable {player : GamePlayer Extended}

theorem Placed.congr (h : player.Placed) {player' : GamePlayer Extended} (hx : player'.x = player.x)
    (hy : player'.y = player.y) (hz : player'.z = player.z) : player'.Placed where
  x := hx ▸ h.x
  y := hy ▸ h.y
  z := hz ▸ h.z

theorem placed_spawn (peer : SockAddrIn) (playerId : UInt32) (idx : Nat) :
    (spawn peer playerId idx : GamePlayer Extended).Placed where
  x := ⟨_, rfl⟩
  y := ⟨_, rfl⟩
  z := ⟨_, rfl⟩

theorem placed_respawn (player : GamePlayer Extended) (playerId : UInt32) :
    (player.respawn playerId).Placed where
  x := ⟨_, rfl⟩
  y := ⟨_, rfl⟩
  z := ⟨_, rfl⟩

theorem Placed.coolDown (h : player.Placed) (dt : Extended) : (player.coolDown dt).Placed := by
  simp only [GamePlayer.coolDown]
  split
  · exact h
  split
  · exact h.congr rfl rfl rfl
  · exact h

/-- The server moves a player from one finite position to another. -/
theorem Placed.move (h : player.Placed) (matchOver : Bool) (d : UInt32) :
    (player.move matchOver (tickSeconds d)).Placed := by
  have hdt : (tickSeconds d : Extended).IsFinite :=
    Extended.IsFinite.div (Extended.isFinite_finite _) (by norm_num)
  simp only [GamePlayer.move]
  split
  · exact h
  split
  · exact h
  · have hangle : ((player.yaw.toInt : Extended) / kYawScale * kDeg2Rad).IsFinite :=
      (Extended.IsFinite.div (Extended.isFinite_finite _) (by norm_num)).mul
        (Extended.IsFinite.div (Extended.isFinite_finite _) (by norm_num))
    have hstick : ∀ m : Int8, ((m.toInt : Extended) / 127.0).IsFinite := fun m =>
      Extended.IsFinite.div (Extended.isFinite_finite _) (by norm_num)
    have hspeed : (kMoveSpeed : Extended).IsFinite := Extended.isFinite_finite _
    constructor
    · exact h.x.add ((((hangle.sin.mul (hstick _)).add (hangle.cos.mul (hstick _))).mul hspeed).mul hdt)
    · exact h.y
    · exact h.z.add
        ((((hangle.cos.mul (hstick _)).add (hangle.sin.neg.mul (hstick _))).mul hspeed).mul hdt)

/-! ## Towards the place that a client reports -/

/-- The distance that `apply_input` computes. -/
noncomputable def separation (player : GamePlayer Extended) (input : GameInputPayload Extended) :
    Extended :=
  Extended.sqrt ((input.posX - player.x) * (input.posX - player.x)
    + (input.posY - player.y) * (input.posY - player.y)
    + (input.posZ - player.z) * (input.posZ - player.z))

theorem moveTowards_eq (player : GamePlayer Extended) (input : GameInputPayload Extended)
    (maxStep : Extended) :
    player.moveTowards input maxStep
      = if Extended.le (player.separation input) maxStep then
          { player with x := input.posX, y := input.posY, z := input.posZ }
        else if Extended.lt 0.0001 (player.separation input) then
          { player with
            x := player.x + (input.posX - player.x) * (maxStep / player.separation input)
            y := player.y + (input.posY - player.y) * (maxStep / player.separation input)
            z := player.z + (input.posZ - player.z) * (maxStep / player.separation input) }
        else player := rfl

/-- From a finite position towards a finite one. -/
theorem Placed.towards_finite (h : player.Placed) {input : GameInputPayload Extended} {m : ℝ}
    (hx : input.posX.IsFinite) (hy : input.posY.IsFinite) (hz : input.posZ.IsFinite) :
    (player.moveTowards input (finite m)).Placed := by
  have hx' := hx.sub h.x
  have hy' := hy.sub h.y
  have hz' := hz.sub h.z
  obtain ⟨r, hr⟩ : (player.separation input).IsFinite := by
    obtain ⟨dx, hdx⟩ := hx'
    obtain ⟨dy, hdy⟩ := hy'
    obtain ⟨dz, hdz⟩ := hz'
    rw [separation, hdx, hdy, hdz]
    exact ⟨_, Extended.sqrt_finite (add_nonneg (add_nonneg (mul_self_nonneg dx) (mul_self_nonneg dy))
      (mul_self_nonneg dz))⟩
  rw [moveTowards_eq, hr]
  split
  · exact ⟨hx, hy, hz⟩
  split
  · rename_i hfar
    have hne : r ≠ 0 := by
      have hlt : (0.0001 : ℝ) < r := of_decide_eq_true hfar
      norm_num at hlt
      linarith
    have hscale : (finite m / finite r).IsFinite := Extended.IsFinite.div ⟨m, rfl⟩ hne
    exact ⟨h.x.add (hx'.mul hscale), h.y.add (hy'.mul hscale), h.z.add (hz'.mul hscale)⟩
  · exact h

/-- A position with NaN in it is not gone to. -/
theorem moveTowards_nan {input : GameInputPayload Extended}
    (hnan : nan ∈ [input.posX, input.posY, input.posZ]) (maxStep : Extended) :
    player.moveTowards input maxStep = player := by
  have hsep : player.separation input = nan := by
    simp only [List.mem_cons, List.not_mem_nil, or_false] at hnan
    rcases hnan with h | h | h
    · simp [separation, ← h]
    · simp [separation, ← h]
    · simp [separation, ← h]
  rw [moveTowards_eq, hsep, Extended.nan_le, Extended.lt_nan]
  rfl

/-- From a finite position towards infinity: the coordinate there is NaN. -/
theorem Placed.not_towards_inf (h : player.Placed) {input : GameInputPayload Extended} {m : ℝ}
    {s : Bool} (hnan : nan ∉ [input.posX, input.posY, input.posZ])
    (hinf : inf s ∈ [input.posX, input.posY, input.posZ]) :
    ¬(player.moveTowards input (finite m)).Placed := by
  simp only [List.mem_cons, List.not_mem_nil, or_false, not_or] at hnan hinf
  obtain ⟨hx, hy, hz⟩ := hnan
  have hx' := Extended.nonneg_mul_self (Extended.sub_ne_nan (Ne.symm hx) h.x)
  have hy' := Extended.nonneg_mul_self (Extended.sub_ne_nan (Ne.symm hy) h.y)
  have hz' := Extended.nonneg_mul_self (Extended.sub_ne_nan (Ne.symm hz) h.z)
  have hsep : player.separation input = inf false := by
    rw [separation]
    rcases hinf with hat | hat | hat
    · rw [← hat, Extended.inf_sub_of_isFinite s h.x, Extended.inf_mul_self, hy'.inf_add, hz'.inf_add]
      rfl
    · rw [← hat, Extended.inf_sub_of_isFinite s h.y, Extended.inf_mul_self, hx'.add_inf, hz'.inf_add]
      rfl
    · rw [← hat, Extended.inf_sub_of_isFinite s h.z, Extended.inf_mul_self, (hx'.add hy').add_inf]
      rfl
  rw [moveTowards_eq, hsep]
  -- neither within the allowance nor close by
  show ¬Placed { player with
    x := player.x + (input.posX - player.x) * finite 0
    y := player.y + (input.posY - player.y) * finite 0
    z := player.z + (input.posZ - player.z) * finite 0 }
  intro hplaced
  have hnowhere : ∀ a b : Extended, b.IsFinite → inf s = a → ¬(b + (a - b) * finite 0).IsFinite := by
    rintro a b hb rfl
    rw [Extended.inf_sub_of_isFinite s hb, Extended.inf_mul_zero, Extended.add_nan]
    exact Extended.not_isFinite_nan
  rcases hinf with hat | hat | hat
  · exact hnowhere _ _ h.x hat hplaced.x
  · exact hnowhere _ _ h.y hat hplaced.y
  · exact hnowhere _ _ h.z hat hplaced.z

/-- **One report.** -/
theorem Placed.towards_iff (h : player.Placed) (input : GameInputPayload Extended) (m : ℝ) :
    (player.moveTowards input (finite m)).Placed
      ↔ (∀ a ∈ [input.posX, input.posY, input.posZ], ∀ s, a ≠ inf s)
        ∨ nan ∈ [input.posX, input.posY, input.posZ] := by
  by_cases hnan : nan ∈ [input.posX, input.posY, input.posZ]
  · rw [moveTowards_nan hnan]
    exact iff_of_true h (.inr hnan)
  by_cases hinf : ∀ a ∈ [input.posX, input.posY, input.posZ], ∀ s, a ≠ inf s
  · have hfinite : ∀ a ∈ [input.posX, input.posY, input.posZ], a.IsFinite := fun a ha =>
      Extended.isFinite_of_ne (hinf a ha) fun heq => hnan (heq ▸ ha)
    refine iff_of_true (h.towards_finite ?_ ?_ ?_) (.inl hinf)
    · exact hfinite _ (by simp)
    · exact hfinite _ (by simp)
    · exact hfinite _ (by simp)
  · refine iff_of_false ?_ (not_or.mpr ⟨hinf, hnan⟩)
    simp only [not_forall, ne_eq, not_not] at hinf
    obtain ⟨a, ha, s, rfl⟩ := hinf
    exact h.not_towards_inf hnan ha

/-- **One input.** From a finite position a player comes to a finite one exactly if the input is
harmless. -/
theorem Placed.onInput_iff (h : player.Placed) (input : GameInputPayload Extended) :
    (player.onInput input).Placed ↔ input.Harmless := by
  have hstep : ∀ first : Bool, (if first = true then 100.0 else 3.0 : Extended)
      = finite (if first = true then 100.0 else 3.0) := by
    rintro (- | -)
    · rfl
    · rfl
  unfold onInput
  dsimp only
  split
  · rename_i hpos
    rw [hstep, GameInputPayload.Harmless, or_iff_right hpos]
    refine Placed.towards_iff ?_ input _
    exact h.congr rfl rfl rfl
  · rename_i hpos
    exact iff_of_true (h.congr rfl rfl rfl) (.inl (not_not.mp hpos))

end GamePlayer

/-! ## A room -/

namespace GameRoom

/-- Every player is at a finite position. -/
def AllPlaced (room : GameRoom Extended) : Prop :=
  ∀ q player, room.findPlayer q = some player → player.Placed

/-- An input that counts is harmless. -/
def SafeInput (room : GameRoom Extended) : Op Extended → Prop
  | .applyInput p input => room.Takes p input → input.Harmless
  | _ => True

variable {room : GameRoom Extended}

theorem allPlaced_new (roomId d : UInt32) : (GameRoom.new roomId d : GameRoom Extended).AllPlaced :=
  fun _ _ h => nomatch h

/-- **One operation, one player.** -/
theorem Course.placed {q : UInt32} {op : Op Extended} {before after : Option (GamePlayer Extended)}
    (h : room.Course q op before after) (hq : room.findPlayer q = before)
    (hplaced : ∀ player, before = some player → player.Placed) (hsafe : room.SafeInput op) :
    ∀ player, after = some player → player.Placed := by
  rintro player' hafter
  cases h with
  | keeps hidle => exact hplaced player' hafter
  | leaves => cases hafter
  | joins hq =>
      obtain rfl := Option.some.inj hafter
      exact GamePlayer.placed_spawn _ _ _
  | reports haccepts =>
      obtain rfl := Option.some.inj hafter
      exact ((hplaced _ rfl).onInput_iff _).mpr (hsafe ⟨_, hq, haccepts⟩)
  | revives hgranted =>
      obtain rfl := Option.some.inj hafter
      exact GamePlayer.placed_respawn _ q
  | ticks =>
      obtain rfl := Option.some.inj hafter
      exact ((hplaced _ rfl).coolDown _).move _ _
  | hurts hshot hmatch hlive hhp | dies hshot hmatch hlive hhp | scores hshot hmatch hlive | arms hle
  | renames =>
      obtain rfl := Option.some.inj hafter
      exact (hplaced _ rfl).congr rfl rfl rfl

/-- **One operation.** Every position stays finite exactly if an input that counts is harmless. -/
theorem AllPlaced.perform_iff (h : room.AllPlaced) (hfiled : room.Filed) (op : Op Extended) :
    (room.perform op).AllPlaced ↔ room.SafeInput op := by
  constructor
  · intro hafter
    cases op with
    | applyInput p input =>
        rintro ⟨player, hplayer, haccepts⟩
        refine ((h p player hplayer).onInput_iff input).mp (hafter p _ ?_)
        show (room.applyInput p input).findPlayer p = _
        rw [applyInput_of_accepts hplayer haccepts, findPlayer_modifyPlayer, if_pos rfl, hplayer]
        rfl
    | _ => trivial
  · intro hsafe q
    exact (perform_course hfiled op q).placed rfl (h q) hsafe

/-! ## The contract -/

/-- **When positions stay finite.** In a run of a room all positions are finite in all states exactly
if every input that counts is harmless. -/
theorem positions_finite_iff (roomId d : UInt32) (ops : List (Op Extended)) :
    (∀ n, ∀ q player, (run perform (GameRoom.new roomId d) (ops.take n)).findPlayer q = some player →
        player.x.IsFinite ∧ player.y.IsFinite ∧ player.z.IsFinite)
      ↔ Admissible perform SafeInput (GameRoom.new roomId d) ops := by
  have hplaced : ∀ room : GameRoom Extended, (∀ q player, room.findPlayer q = some player →
      player.x.IsFinite ∧ player.y.IsFinite ∧ player.z.IsFinite) ↔ room.AllPlaced := by
    intro room
    refine forall₃_congr fun q player hplayer => ⟨fun h => ⟨h.1, h.2.1, h.2.2⟩, fun h => ?_⟩
    exact ⟨h.x, h.y, h.z⟩
  simp only [hplaced]
  have hstart : (GameRoom.new roomId d : GameRoom Extended).AllPlaced
      ∧ (GameRoom.new roomId d : GameRoom Extended).Filed :=
    ⟨allPlaced_new roomId d, filed_new roomId d⟩
  have hstep : ∀ (room : GameRoom Extended) (op : Op Extended), room.AllPlaced ∧ room.Filed →
      room.SafeInput op → (room.perform op).AllPlaced ∧ (room.perform op).Filed :=
    fun room op h hsafe => ⟨(h.1.perform_iff h.2 op).mpr hsafe, h.2.perform op⟩
  exact forall_take_iff_admissible (fun _ h => h.1) (fun _ op h => h.1.perform_iff h.2 op) hstep hstart

/-- A report from infinity. -/
noncomputable def farAway : GameInputPayload Extended where
  inputSeq := 1
  clientTick := 0
  moveX := 0
  moveY := 0
  yaw := 0
  pitch := 0
  buttons := 0
  posX := inf false
  posY := finite 0
  posZ := finite 0
  hasPos := 1

/-- A player that reports to be at infinity is nowhere. -/
theorem position_lost :
    ¬∀ q player, (run perform (GameRoom.new 1 33)
        [.addPlayer ⟨127, 0, 0, 1, 7000⟩ 1, .applyInput 1 farAway]).findPlayer q = some player →
      player.x.IsFinite ∧ player.y.IsFinite ∧ player.z.IsFinite := by
  intro h
  have hfiled := filed_new (F := Extended) 1 33
  have hjoined := ((allPlaced_new 1 33).perform_iff hfiled
    (.addPlayer ⟨127, 0, 0, 1, 7000⟩ 1)).mpr trivial
  have hplaced : (run perform (GameRoom.new 1 33 : GameRoom Extended)
      [.addPlayer ⟨127, 0, 0, 1, 7000⟩ 1, .applyInput 1 farAway]).AllPlaced := by
    intro q player hplayer
    obtain ⟨hx, hy, hz⟩ := h q player hplayer
    exact ⟨hx, hy, hz⟩
  have hsafe := (hjoined.perform_iff (hfiled.perform _) (.applyInput 1 farAway)).mp hplaced
  rcases hsafe ⟨_, rfl, rfl, rfl, by decide⟩ with hpos | hinf | hnan
  · exact absurd hpos (by decide)
  · exact hinf _ List.mem_cons_self false rfl
  · simp [farAway] at hnan

end GameRoom

end LightNet.Game
