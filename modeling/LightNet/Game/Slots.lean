/-
# LightNet.Game.Slots — the places at which players start.

A player that joins is put on the place of a grid that has the number of those who are there already,
and one that comes back on the place that has its id.  Ids start at 1, so the place of a player moves by
one when it comes back for the first time, to where the next player has started.  As long as nobody
walks, two players are at one place exactly if the first of them has come back and the next has not.

Who has come back is not in the room; `Stage` keeps it beside the room.
-/
import LightNet.Game.Revival
import LightNet.Game.Speed
import LightNet.Game.Targeting

namespace LightNet.Game

open LightNet.Foundation LightNet.Net
open GameRoomManager (tickSeconds)

/-! ## The grid -/

/-- Place number `i` of the grid. -/
noncomputable def spot (i : Nat) : Space :=
  point (((i % 4 : Nat) : ℝ) * 3.0) 13.0 (((i / 4 : Nat) : ℝ) * 3.0)

theorem spot_inj {i j : Nat} : spot i = spot j ↔ i = j := by
  constructor
  · intro h
    obtain ⟨hx, -, hz⟩ := point_inj.mp h
    have hmod : i % 4 = j % 4 := by
      have := mul_right_cancel₀ (by norm_num) hx
      exact_mod_cast this
    have hdiv : i / 4 = j / 4 := by
      have := mul_right_cancel₀ (by norm_num) hz
      exact_mod_cast this
    omega
  · rintro rfl
    rfl

namespace GamePlayer

theorem position_spawn (peer : SockAddrIn) (playerId : UInt32) (idx : Nat) :
    (spawn peer playerId idx).position = spot idx := by
  rw [position, spot, spawn, point_inj]
  norm_num

theorem position_respawn (player : GamePlayer ℝ) (playerId : UInt32) :
    (player.respawn playerId).position = spot playerId.toNat := by
  have hlt := playerId.toNat_lt
  have hx : ((playerId % 4) * 3).toNat = playerId.toNat % 4 * 3 := by
    rw [UInt32.toNat_mul, UInt32.toNat_mod]
    exact Nat.mod_eq_of_lt (by show playerId.toNat % 4 * 3 < _; omega)
  have hz : ((playerId / 4) * 3).toNat = playerId.toNat / 4 * 3 := by
    rw [UInt32.toNat_mul, UInt32.toNat_div]
    exact Nat.mod_eq_of_lt (by show playerId.toNat / 4 * 3 < _; omega)
  rw [position, spot, respawn, point_inj]
  dsimp only
  rw [hx, hz]
  norm_num

/-- The stick is at rest. -/
def Rests (player : GamePlayer ℝ) : Prop := player.moveX = 0 ∧ player.moveY = 0

/-- A player whose stick is at rest is not moved. -/
theorem Rests.position_tick {player : GamePlayer ℝ} (h : player.Rests) (matchOver : Bool) {dt : ℝ}
    (hdt : 0 ≤ dt) : ((player.coolDown dt).move matchOver dt).position = player.position := by
  by_cases hdriven : player.Driven matchOver
  · have hstick : player.stick = 0 := by
      rw [stick, h.1, h.2]
      show √(((0 : Int) : ℝ) ^ 2 + ((0 : Int) : ℝ) ^ 2) = 0
      norm_num
    rw [position_tick_of_driven hdriven, eq_comm, ← dist_eq_zero, dist_move hdriven hdt, hstick]
    norm_num
  · exact position_tick_of_not_driven hdriven dt

theorem Rests.tick {player : GamePlayer ℝ} (h : player.Rests) (matchOver : Bool) (dt : ℝ) :
    ((player.coolDown dt).move matchOver dt).Rests := by
  have hcontrols := player.controls_tick matchOver dt
  rw [Rests, show GamePlayer.moveX _ = player.moveX from congrArg Controls.moveX hcontrols,
    show GamePlayer.moveY _ = player.moveY from congrArg Controls.moveY hcontrols]
  exact h

/-- The player with id `n` is on one of its places: the place of its id if it has come back, and else
the one before. -/
structure Stands (player : GamePlayer ℝ) (n : Nat) (returned : Prop) : Prop where
  rests : player.Rests
  back : returned → player.position = spot n
  fresh : ¬returned → player.position = spot (n - 1)

theorem Stands.congr {player : GamePlayer ℝ} {n : Nat} {returned : Prop}
    (h : player.Stands n returned) {player' : GamePlayer ℝ} (hrests : player'.Rests)
    (hplace : player'.position = player.position) {returned' : Prop}
    (hreturned : returned' ↔ returned) : player'.Stands n returned' where
  rests := hrests
  back h' := hplace.trans (h.back (hreturned.mp h'))
  fresh h' := hplace.trans (h.fresh fun hback => h' (hreturned.mpr hback))

end GamePlayer

/-! ## Who has come back -/

namespace GameRoom

variable {room : GameRoom ℝ}

/-- Nobody walks or leaves, and who joins gets the next id. -/
def Plays (room : GameRoom ℝ) : Op ℝ → Prop
  | .addPlayer _ p => p.toNat = room.playerCount + 1
  | .removePlayer _ => False
  | .applyInput _ _ => False
  | _ => True

/-- No two players are at one place. -/
def Apart (room : GameRoom ℝ) : Prop :=
  ∀ q q' player player', q ≠ q' → room.findPlayer q = some player →
    room.findPlayer q' = some player' → player.position ≠ player'.position

/-- An operation on a record of somebody who rests: the record stays where it is. -/
theorem Course.rests {q : UInt32} {op : Op ℝ} {player : GamePlayer ℝ} {after : Option (GamePlayer ℝ)}
    (h : room.Course q op (some player) after) (hplays : room.Plays op)
    (hstays : ∀ p, op ≠ .applyRespawn p) (hrests : player.Rests) :
    ∃ player', after = some player' ∧ player'.Rests ∧ player'.position = player.position := by
  cases h with
  | leaves => exact hplays.elim
  | reports haccepts => exact hplays.elim
  | revives hgranted => exact absurd rfl (hstays q)
  | ticks =>
      exact ⟨_, rfl, hrests.tick _ _, hrests.position_tick _ (tickSeconds_nonneg _)⟩
  | _ => exact ⟨_, rfl, hrests, rfl⟩

/-- Without a join or a leave the same players are in the room. -/
theorem isSome_perform (hfiled : room.Filed) {op : Op ℝ} (hplays : room.Plays op)
    (hjoin : ∀ peer p, op ≠ .addPlayer peer p) (q : UInt32) :
    ((room.perform op).findPlayer q).isSome = (room.findPlayer q).isSome := by
  have hcourse := perform_course hfiled op q
  generalize (room.perform op).findPlayer q = after at hcourse ⊢
  generalize room.findPlayer q = before at hcourse ⊢
  cases hcourse with
  | leaves => exact hplays.elim
  | joins hq => exact absurd rfl (hjoin _ q)
  | _ => rfl

/-- The number of players depends on nothing but who is there. -/
theorem playerCount_congr {room room' : GameRoom ℝ}
    (h : ∀ q, (room'.findPlayer q).isSome = (room.findPlayer q).isSome) :
    room'.playerCount = room.playerCount := by
  have hmem : ∀ q, q ∈ room'.players.keys ↔ q ∈ room.players.keys := by
    intro q
    rw [← AList.mem_keys, ← AList.mem_keys, ← AList.lookup_isSome, ← AList.lookup_isSome]
    exact iff_of_eq (congrArg (· = true) (h q))
  rw [playerCount, playerCount, UnorderedMap.size_eq_keys_length, UnorderedMap.size_eq_keys_length]
  have hperm := List.perm_ext_iff_of_nodup room'.players.keys_nodup room.players.keys_nodup
  exact (hperm.mpr hmem).length_eq

/-! ## The stage -/

/-- A room, and the players that have come back in it. -/
structure Stage where
  room : GameRoom ℝ
  returned : UInt32 → Prop

namespace Stage

/-- A new room, in which nobody has come back. -/
noncomputable def new (roomId tickIntervalMs : UInt32) : Stage where
  room := GameRoom.new roomId tickIntervalMs
  returned _ := False

/-- The room takes the operation, and who comes back by it is written down. -/
noncomputable def step (s : Stage) (op : Op ℝ) : Stage where
  room := s.room.perform op
  returned q := s.returned q ∨ op = .applyRespawn q ∧ s.room.Grants q

/-- Nobody joins behind a player who has come back, and nobody comes back in front of one who has
not. -/
def Clear (s : Stage) : Op ℝ → Prop
  | .addPlayer _ p => ∀ q, q.toNat + 1 = p.toNat → ¬s.returned q
  | .applyRespawn p => s.room.Grants p →
      ∀ q, (s.room.findPlayer q).isSome → q.toNat = p.toNat + 1 → s.returned q
  | _ => True

/-! ## In line -/

/-- The players have the ids from 1 on, and are on the places where they have been put. -/
structure Lined (s : Stage) : Prop where
  filed : s.room.Filed
  numbered : ∀ q, (s.room.findPlayer q).isSome ↔ 0 < q.toNat ∧ q.toNat ≤ s.room.playerCount
  known : ∀ q, s.returned q → (s.room.findPlayer q).isSome
  stands : ∀ q player, s.room.findPlayer q = some player → player.Stands q.toNat (s.returned q)

/-! ## Nothing behind a gap -/

/-- Who stands behind a player that has come back has come back too. -/
def Closed (s : Stage) : Prop :=
  ∀ q q', s.returned q → (s.room.findPlayer q').isSome → q'.toNat = q.toNat + 1 → s.returned q'

variable {s : Stage}

theorem lined_new (roomId d : UInt32) : (Stage.new roomId d).Lined where
  filed := filed_new roomId d
  numbered q := by
    refine iff_of_false nofun ?_
    rintro ⟨hpos, hle⟩
    exact hpos.not_ge hle
  known _ h := h.elim
  stands _ _ h := nomatch h

/-- **Where the players are**: apart from each other exactly if no player has come back in front of one
who has not. -/
theorem Lined.apart_iff (h : s.Lined) : s.room.Apart ↔ s.Closed := by
  have hpos : ∀ {q player}, s.room.findPlayer q = some player → 0 < q.toNat := fun {q _} hq =>
    ((h.numbered q).mp (Option.isSome_of_eq_some hq)).1
  constructor
  · intro hapart q q' hback hq' hnext
    by_contra hfresh
    obtain ⟨player, hplayer⟩ := Option.isSome_iff_exists.mp (h.known q hback)
    obtain ⟨player', hplayer'⟩ := Option.isSome_iff_exists.mp hq'
    have hne : q ≠ q' := by
      rintro rfl
      exact hfresh hback
    refine hapart q q' player player' hne hplayer hplayer' ?_
    rw [(h.stands q player hplayer).back hback, (h.stands q' player' hplayer').fresh hfresh, hnext,
      Nat.add_sub_cancel]
  · intro hclosed q q' player player' hne hplayer hplayer' hsame
    have hq := hpos hplayer
    have hq' := hpos hplayer'
    have hne : q.toNat ≠ q'.toNat := fun heq => hne (UInt32.toNat_inj.mp heq)
    have hstands := h.stands q player hplayer
    have hstands' := h.stands q' player' hplayer'
    by_cases hback : s.returned q <;> by_cases hback' : s.returned q'
    · rw [hstands.back hback, hstands'.back hback', spot_inj] at hsame
      exact hne hsame
    · rw [hstands.back hback, hstands'.fresh hback', spot_inj] at hsame
      exact hback' (hclosed q q' hback (Option.isSome_of_eq_some hplayer') (by omega))
    · rw [hstands.fresh hback, hstands'.back hback', spot_inj] at hsame
      exact hback (hclosed q' q hback' (Option.isSome_of_eq_some hplayer) (by omega))
    · rw [hstands.fresh hback, hstands'.fresh hback', spot_inj] at hsame
      omega

/-- What is left to see after an operation in which nobody joins. -/
theorem Lined.stay (h : s.Lined) {op : Op ℝ} (hplays : s.room.Plays op)
    (hjoin : ∀ peer p, op ≠ .addPlayer peer p)
    (hstands : ∀ q player, (s.room.perform op).findPlayer q = some player →
      player.Stands q.toNat ((s.step op).returned q)) : (s.step op).Lined := by
  have hsame := isSome_perform h.filed hplays hjoin
  refine ⟨h.filed.perform op, fun q => ?_, fun q hq => ?_, hstands⟩
  · show ((s.room.perform op).findPlayer q).isSome ↔ _ ∧ _ ≤ (s.room.perform op).playerCount
    rw [hsame, playerCount_congr hsame]
    exact h.numbered q
  · show ((s.room.perform op).findPlayer q).isSome
    rw [hsame]
    rcases hq with hback | ⟨-, player, hplayer, -⟩
    · exact h.known q hback
    · rw [hplayer]
      rfl

theorem Lined.quiet (h : s.Lined) {op : Op ℝ} (hplays : s.room.Plays op)
    (hjoin : ∀ peer p, op ≠ .addPlayer peer p) (hstays : ∀ p, op ≠ .applyRespawn p) :
    (s.step op).Lined := by
  refine h.stay hplays hjoin fun q player' hplayer' => ?_
  have hcourse := perform_course h.filed op q
  cases hplayer : s.room.findPlayer q with
  | none =>
      have hsame := isSome_perform h.filed hplays hjoin q
      rw [hplayer, hplayer'] at hsame
      cases hsame
  | some player =>
      rw [hplayer, hplayer'] at hcourse
      have hstands := h.stands q player hplayer
      obtain ⟨_, ⟨⟩, hrests, hplace⟩ := hcourse.rests hplays hstays hstands.rests
      exact hstands.congr hrests hplace (or_iff_left fun hq => hstays q hq.1)

theorem Lined.respawn (h : s.Lined) (p : UInt32) : (s.step (.applyRespawn p)).Lined := by
  refine h.stay trivial nofun fun q player' hplayer' => ?_
  have hplayer' : (s.room.applyRespawn p).findPlayer q = some player' := hplayer'
  by_cases hgrants : s.room.Grants p
  · rw [applyRespawn_of_grants hgrants, findPlayer_modifyPlayer] at hplayer'
    split at hplayer'
    · rename_i hq
      subst hq
      obtain ⟨player, -, rfl⟩ := Option.map_eq_some_iff.mp hplayer'
      exact ⟨⟨rfl, rfl⟩, fun _ => player.position_respawn q, fun hfresh =>
        absurd (.inr ⟨rfl, hgrants⟩) hfresh⟩
    · rename_i hq
      have hstands := h.stands q player' hplayer'
      refine hstands.congr hstands.rests rfl (or_iff_left fun hback => hq ?_)
      cases hback.1
      rfl
  · rw [applyRespawn_of_not_grants hgrants] at hplayer'
    have hstands := h.stands q player' hplayer'
    refine hstands.congr hstands.rests rfl (or_iff_left fun hback => hgrants ?_)
    cases hback.1
    exact hback.2

/-- Who gets the next id is not in the room yet. -/
theorem Lined.next_free (h : s.Lined) {p : UInt32} (hnext : p.toNat = s.room.playerCount + 1) :
    s.room.findPlayer p = none := by
  rw [← Option.not_isSome_iff_eq_none, h.numbered]
  omega

/-- The room with the next player. -/
theorem Lined.addPlayer_eq (h : s.Lined) (peer : SockAddrIn) {p : UInt32}
    (hnext : p.toNat = s.room.playerCount + 1) : s.room.perform (.addPlayer peer p)
      = { s.room with
          players := s.room.players.insert p (GamePlayer.spawn peer p s.room.playerCount) } := by
  have hfree : p ∉ s.room.players := AList.lookup_eq_none.mp (h.next_free hnext)
  have hzero : p ≠ 0 := by
    rintro rfl
    exact absurd hnext (by show 0 ≠ _; omega)
  rw [perform, addPlayer, if_neg (not_or.mpr ⟨hzero, hfree⟩)]

theorem Lined.findPlayer_join (h : s.Lined) (peer : SockAddrIn) {p : UInt32}
    (hnext : p.toNat = s.room.playerCount + 1) (q : UInt32) :
    (s.room.perform (.addPlayer peer p)).findPlayer q
      = if q = p then some (GamePlayer.spawn peer p s.room.playerCount) else s.room.findPlayer q := by
  rw [h.addPlayer_eq peer hnext]
  exact UnorderedMap.lookup_insert _ _ _ _

/-- The next player. -/
theorem Lined.join (h : s.Lined) (peer : SockAddrIn) {p : UInt32}
    (hnext : p.toNat = s.room.playerCount + 1) : (s.step (.addPlayer peer p)).Lined := by
  have hfind := h.findPlayer_join peer hnext
  have hcount : (s.room.perform (.addPlayer peer p)).playerCount = s.room.playerCount + 1 := by
    rw [h.addPlayer_eq peer hnext]
    exact UnorderedMap.size_insert (AList.lookup_eq_none.mp (h.next_free hnext)) _
  have hreturned : ∀ q, (s.step (.addPlayer peer p)).returned q ↔ s.returned q := fun q =>
    or_iff_left fun hback => nomatch hback.1
  refine ⟨h.filed.perform _, fun q => ?_, fun q hq => ?_, fun q player hplayer => ?_⟩
  · show ((s.room.perform (.addPlayer peer p)).findPlayer q).isSome ↔ _ ∧ _ ≤ _
    rw [hfind, show (s.step (.addPlayer peer p)).room.playerCount = _ from hcount]
    split
    · rename_i hq
      subst hq
      exact iff_of_true rfl ⟨by omega, hnext.le⟩
    · rename_i hq
      have hne : q.toNat ≠ p.toNat := fun heq => hq (UInt32.toNat_inj.mp heq)
      rw [h.numbered]
      omega
  · show ((s.room.perform (.addPlayer peer p)).findPlayer q).isSome
    rw [hfind]
    split
    · rfl
    · exact h.known q ((hreturned q).mp hq)
  · have hplayer : (s.room.perform (.addPlayer peer p)).findPlayer q = some player := hplayer
    rw [hfind] at hplayer
    split at hplayer
    · rename_i hq
      subst hq
      obtain rfl := Option.some.inj hplayer
      refine ⟨⟨rfl, rfl⟩, fun hback => ?_, fun _ => ?_⟩
      · -- it has not been here before
        have hthere := h.known q ((hreturned q).mp hback)
        rw [h.next_free hnext] at hthere
        cases hthere
      · rw [GamePlayer.position_spawn, hnext, Nat.add_sub_cancel]
    · have hstands := h.stands q player hplayer
      exact hstands.congr hstands.rests rfl (hreturned q)

/-- **One operation.** -/
theorem Lined.after (h : s.Lined) {op : Op ℝ} (hplays : s.room.Plays op) : (s.step op).Lined := by
  cases op with
  | addPlayer peer p => exact h.join peer hplays
  | applyRespawn p => exact h.respawn p
  | _ => exact h.quiet hplays nofun nofun

/-- An operation after which the same players are there and have come back. -/
theorem closed_step_of_quiet {op : Op ℝ}
    (hsame : ∀ q, ((s.room.perform op).findPlayer q).isSome = (s.room.findPlayer q).isSome)
    (hstays : ∀ p, op ≠ .applyRespawn p) : (s.step op).Closed ↔ s.Closed := by
  have hreturned : ∀ q, (s.step op).returned q ↔ s.returned q := fun q =>
    or_iff_left fun hback => hstays q hback.1
  have hthere : ∀ q, ((s.step op).room.findPlayer q).isSome = (s.room.findPlayer q).isSome := hsame
  simp only [Closed, hreturned, hthere]

theorem Closed.join_iff (h : s.Closed) (hlined : s.Lined) (peer : SockAddrIn) {p : UInt32}
    (hnext : p.toNat = s.room.playerCount + 1) :
    (s.step (.addPlayer peer p)).Closed ↔ ∀ q, q.toNat + 1 = p.toNat → ¬s.returned q := by
  have hreturned : ∀ q, (s.step (.addPlayer peer p)).returned q ↔ s.returned q := fun q =>
    or_iff_left fun hback => nomatch hback.1
  have hthere : ∀ q, ((s.step (.addPlayer peer p)).room.findPlayer q).isSome
      ↔ q = p ∨ (s.room.findPlayer q).isSome := by
    intro q
    show ((s.room.perform (.addPlayer peer p)).findPlayer q).isSome ↔ _
    rw [hlined.findPlayer_join peer hnext]
    split
    · rename_i hq
      exact iff_of_true rfl (.inl hq)
    · rename_i hq
      exact (or_iff_right hq).symm
  simp only [Closed, hreturned, hthere]
  constructor
  · intro hclosed q hq hback
    have hthere' := hlined.known p (hclosed q p hback (.inl rfl) hq.symm)
    rw [hlined.next_free hnext] at hthere'
    cases hthere'
  · rintro hclear q q' hback (rfl | hq') hnext'
    · exact absurd hback (hclear q hnext'.symm)
    · exact h q q' hback hq' hnext'

theorem Closed.respawn_iff (h : s.Closed) (hlined : s.Lined) (p : UInt32) :
    (s.step (.applyRespawn p)).Closed ↔ s.Clear (.applyRespawn p) := by
  have hthere : ∀ q, ((s.step (.applyRespawn p)).room.findPlayer q).isSome
      = (s.room.findPlayer q).isSome := isSome_perform hlined.filed trivial nofun
  simp only [Closed, hthere]
  constructor
  · intro hclosed hgrants q hq hnext
    refine (hclosed p q (.inr ⟨rfl, hgrants⟩) hq hnext).resolve_right fun hback => ?_
    obtain rfl : p = q := Op.applyRespawn.inj hback.1
    omega
  · rintro hclear q q' (hback | ⟨heq, hgrants⟩) hq' hnext
    · exact .inl (h q q' hback hq' hnext)
    · obtain rfl : p = q := Op.applyRespawn.inj heq
      exact .inl (hclear hgrants q' hq' hnext)

/-- **One operation** keeps the order of those who have come back exactly if it is clear. -/
theorem Closed.step_iff (h : s.Closed) (hlined : s.Lined) {op : Op ℝ} (hplays : s.room.Plays op) :
    (s.step op).Closed ↔ s.Clear op := by
  cases op with
  | addPlayer peer p => exact h.join_iff hlined peer hplays
  | applyRespawn p => exact h.respawn_iff hlined p
  | removePlayer p => exact hplays.elim
  | applyInput p input => exact hplays.elim
  | _ =>
      have hsame := isSome_perform hlined.filed hplays nofun
      exact iff_of_true ((closed_step_of_quiet hsame nofun).mpr h) trivial

end Stage

/-! ## The contract -/

/-- **When the slots do not collide.** In a run in which nobody walks or leaves and the players join
with the ids from 1 on, no two players are ever at one place exactly if nobody joins behind a player
who has come back, and nobody comes back in front of one who has not. -/
theorem slots_apart_iff (roomId d : UInt32) (ops : List (Op ℝ))
    (hplays : Admissible perform Plays (GameRoom.new roomId d) ops) :
    (∀ n, (run perform (GameRoom.new roomId d) (ops.take n)).Apart)
      ↔ Admissible Stage.step Stage.Clear (Stage.new roomId d) ops := by
  have hpart : ∀ (s : Stage) (op : Op ℝ), Stage.room (s.step op) = (Stage.room s).perform op :=
    fun _ _ => rfl
  have hside : Admissible Stage.step (fun s op => s.room.Plays op) (Stage.new roomId d) ops :=
    (admissible_part hpart).mpr hplays
  have hroom : ∀ n, run perform (GameRoom.new roomId d) (ops.take n)
      = (run Stage.step (Stage.new roomId d) (ops.take n)).room := fun n =>
    (run_part hpart (Stage.new roomId d) (ops.take n)).symm
  simp only [hroom]
  refine forall_take_iff_admissible_of (P := fun s : Stage => s.room.Apart)
    (fun s (h : s.Lined ∧ s.Closed) => h.1.apart_iff.mpr h.2) ?_ ?_
    ⟨Stage.lined_new roomId d, fun _ _ hback => hback.elim⟩ hside
  · rintro s op ⟨hlined, hclosed⟩ hop
    rw [(hlined.after hop).apart_iff, hclosed.step_iff hlined hop]
  · rintro s op ⟨hlined, hclosed⟩ hop hclear
    exact ⟨hlined.after hop, (hclosed.step_iff hlined hop).mpr hclear⟩

/-- Two players join. -/
def twoJoin : List (Op ℝ) :=
  [.addPlayer ⟨127, 0, 0, 1, 7000⟩ 1, .addPlayer ⟨127, 0, 0, 1, 7001⟩ 2]

/-- The second of two players is shot, comes back after a tick, and stands on the place behind its own. -/
theorem slots_apart_iff_sample :
    (run perform (GameRoom.new 1 5000) (duel ++ .applyFireAt 1 2 :: comeback)).alive 2 = some true
      ∧ (run perform (GameRoom.new 1 5000) (duel ++ .applyFireAt 1 2 :: comeback)).Apart := by
  refine ⟨comeback_alive, ?_⟩
  have hplays : Admissible perform Plays (GameRoom.new 1 5000) (duel ++ .applyFireAt 1 2 :: comeback) :=
    ⟨rfl, rfl, trivial, trivial, trivial, trivial, trivial, trivial, trivial⟩
  refine (slots_apart_iff 1 5000 _ hplays).mpr
    ⟨fun q _ hback => hback, fun q _ hback => ?_, trivial, trivial, trivial, trivial, trivial,
      fun _ q hq hthird => ?_, trivial⟩ 8
  · rcases hback with hback | ⟨heq, -⟩
    · exact hback
    · cases heq
  · -- there is no third player
    obtain rfl : q = 3 := UInt32.toNat_inj.mp hthird
    have hnone : ((run perform (GameRoom.new 1 5000) (duel ++ [.applyFireAt 1 2])).perform
        (.tick (.entries _))).findPlayer 3 = none :=
      GameRoomManager.findPlayer_tick _ _ 3
    have hq : (((run perform (GameRoom.new 1 5000) (duel ++ [.applyFireAt 1 2])).perform
        (.tick (.entries _))).findPlayer 3).isSome = true := hq
    rw [hnone] at hq
    cases hq

/-! ## Two players on one place -/

/-- A shot along the row of the grid, towards its beginning. -/
noncomputable def backwards : GameFirePayload ℝ where
  clientTick := 0
  weaponId := 0
  originX := 0
  originY := 0
  originZ := 0
  dirX := -1
  dirY := 0
  dirZ := 0

/-- The neighbour in the row can be hit. -/
theorem eligible_neighbour {shooter target : GamePlayer ℝ} (halive : target.alive = true)
    (hother : target.playerId ≠ shooter.playerId) (hshooter : shooter.position = spot 1)
    (htarget : target.position = spot 0) : target.Eligible shooter (validated shooter backwards 1) := by
  obtain ⟨hx, hy, hz⟩ := point_inj.mp hshooter
  obtain ⟨hx', hy', hz'⟩ := point_inj.mp htarget
  have halong : target.along (validated shooter backwards 1) = 3 := by
    rw [GamePlayer.along_eq, validated, backwards, hx, hx', hy, hy', hz, hz']
    norm_num
  refine ⟨⟨halive, hother, ?_, ?_⟩, ?_⟩
  · rw [halong]
    norm_num
  · rw [halong, GamePlayer.dist_chest, validated, backwards, hx, hx', hy, hy', hz, hz', kHitRadius,
      Real.sqrt_le_left (by norm_num)]
    norm_num
  · rw [halong, kMaxHitRange_exact]
    norm_num

/-- Of the two players in a room the second hits the first. -/
theorem applyFire_neighbour {room : GameRoom ℝ} {ord : IterOrder UInt32}
    {shooter target : GamePlayer ℝ} (hfiled : room.Filed) (hmatch : room.matchOver = false)
    (hkeys : room.players.keys = [2, 1])
    (hshooter : room.findPlayer 2 = some shooter) (haim : shooter.alive = true)
    (hplace : shooter.position = spot 1) (htarget : room.findPlayer 1 = some target)
    (halive : target.alive = true) (hplace' : target.position = spot 0) :
    room.perform (.applyFire ord 2 backwards) = room.perform (.applyFireAt 2 1) := by
  have honly : ∀ q player, room.findPlayer q = some player → q = 1 ∨ q = 2 := by
    intro q player hq
    have hmem : q ∈ room.players := AList.lookup_isSome.mp (Option.isSome_of_eq_some hq)
    rw [AList.mem_keys, hkeys] at hmem
    simp only [List.mem_cons, List.not_mem_nil, or_false] at hmem
    exact hmem.symm
  have hid : shooter.playerId = 2 := (hfiled 2 shooter hshooter).1
  have hid' : target.playerId = 1 := (hfiled 1 target htarget).1
  have hother : target.playerId ≠ shooter.playerId := by
    rw [hid, hid']
    decide
  have hlen : √((-1 : ℝ) * -1 + 0 * 0 + 0 * 0) = 1 := by norm_num
  have hfound : room.findHitTarget ord shooter (validated shooter backwards 1) = some 1 := by
    refine findHitTarget_of_only htarget (eligible_neighbour halive hother hplace hplace') ?_
    intro q player hplayer heligible
    refine (honly q player hplayer).resolve_right fun hq => heligible.other ?_
    rw [hq, hshooter] at hplayer
    rw [Option.some.inj hplayer]
  have hlong : FloatArith.lt (1 : ℝ) 1e-4 = false := decide_eq_false (by norm_num)
  show (room.applyFire ord 2 backwards).room = room.applyFireAt 2 1
  rw [applyFire, applyFireAt, hmatch, hshooter, htarget]
  simp only [Bool.false_eq_true, if_false, haim, Bool.not_true]
  rw [show FloatArith.sqrt (backwards.dirX * backwards.dirX + backwards.dirY * backwards.dirY
    + backwards.dirZ * backwards.dirZ) = 1 from hlen, hlong, hfound]
  dsimp only
  rw [htarget]
  simp [halive]

/-- The second of two players shoots the first one, up to four times. -/
theorem shots_land {k : Nat} (hk : k ≤ 4) : run perform (GameRoom.new 1 5000)
      (twoJoin ++ List.replicate k (.applyFire (.entries _) 2 backwards))
    = run perform (GameRoom.new 1 5000) (twoJoin ++ List.replicate k (.applyFireAt 2 1)) := by
  induction k with
  | zero => rfl
  | succ k ih =>
      have hfiled := filed_run (F := ℝ) 1 5000 (twoJoin ++ List.replicate k (.applyFireAt 2 1))
      have hplace := GamePlayer.position_spawn ⟨127, 0, 0, 1, 7001⟩ 2 1
      have hplace' := GamePlayer.position_spawn ⟨127, 0, 0, 1, 7000⟩ 1 0
      rw [List.replicate_succ', List.replicate_succ', ← List.append_assoc, ← List.append_assoc,
        run_append, ih (Nat.le_of_succ_le hk), run_append _ _ (twoJoin ++ _), run_cons, run_cons]
      have hlt : k < 4 := hk
      interval_cases k
      · exact applyFire_neighbour hfiled rfl rfl rfl rfl hplace rfl rfl hplace'
      · exact applyFire_neighbour hfiled rfl rfl rfl rfl hplace rfl rfl hplace'
      · exact applyFire_neighbour hfiled rfl rfl rfl rfl hplace rfl rfl hplace'
      · exact applyFire_neighbour hfiled rfl rfl rfl rfl hplace rfl rfl hplace'

/-- Whoever comes back is on the place of its id, and a neighbour who rests is where it was. -/
theorem not_apart_of_respawn {room : GameRoom ℝ} {p q : UInt32} (hgrants : room.Grants p)
    (hne : p ≠ q) {player : GamePlayer ℝ} (hplayer : room.findPlayer q = some player)
    (hplace : player.position = spot p.toNat) : ¬(room.applyRespawn p).Apart := by
  intro hapart
  rw [applyRespawn_of_grants hgrants] at hapart
  obtain ⟨back, hback, -⟩ := hgrants
  refine hapart p q (back.respawn p) player hne ?_ ?_ ?_
  · rw [findPlayer_modifyPlayer, if_pos rfl, hback, Option.map_some]
  · rw [findPlayer_modifyPlayer, if_neg hne.symm, hplayer]
  · rw [hplace, back.position_respawn]

/-- The first player comes back at the place of the second one. -/
theorem slots_collide : ¬(run perform (GameRoom.new 1 5000)
    (twoJoin ++ List.replicate 4 (.applyFire (.entries _) 2 backwards)
      ++ [.tick (.entries _), .applyRespawn 1])).Apart := by
  rw [run_append, shots_land le_rfl, run_cons, run_cons, run_nil]
  have hgrants : ((run perform (GameRoom.new 1 5000)
      (twoJoin ++ List.replicate 4 (.applyFireAt 2 1))).perform (.tick (.entries _))).Grants 1 :=
    grants_after_first_tick rfl (by decide) (by decide) rfl rfl rfl _
  obtain ⟨shooter, hshooter, hrests, hplace⟩ : ∃ shooter, (run perform (GameRoom.new 1 5000)
      (twoJoin ++ List.replicate 4 (.applyFireAt 2 1))).findPlayer 2 = some shooter
        ∧ shooter.Rests ∧ shooter.position = spot 1 := by
    refine ⟨_, rfl, ⟨rfl, rfl⟩, ?_⟩
    exact GamePlayer.position_spawn ⟨127, 0, 0, 1, 7001⟩ 2 1
  generalize run perform (GameRoom.new 1 5000) (twoJoin ++ List.replicate 4 (.applyFireAt 2 1))
    = room at *
  have htick : (room.perform (.tick (.entries _))).findPlayer 2 = some _ :=
    (GameRoomManager.findPlayer_tick _ room 2).trans (by rw [hshooter, Option.map_some])
  apply not_apart_of_respawn hgrants (by decide) htick
  rw [hrests.position_tick _ (tickSeconds_nonneg _), hplace]
  rfl

end GameRoom

end LightNet.Game
