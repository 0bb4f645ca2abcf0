/-
# LightNet.Game.Deeds — what a player's message can do in its room.

The room decides on its own, inside `apply_input`, `apply_fire` and so on, whether a message counts;
the manager then announces events to everybody.  `Deed` says once what the two together can come to:
the room is as before, the sender has changed something about itself, somebody has been hit, somebody
has been killed, the sender is back, or a respawn has been announced that the room has refused.

`Standing` is what the score and the screens show of a player: all that stays when the match is over.
-/
import LightNet.Game.Events
import LightNet.Game.PeerIndex

namespace LightNet.Game

open LightNet.Foundation LightNet.Net
open FloatArith (sqrt sin cos lt le)

/-! ## What is seen of a player -/

/-- Life and score of a player. -/
structure Vitals where
  hp : UInt16
  alive : Bool
  kills : UInt16
  deaths : UInt16
  deriving DecidableEq

/-- What the match is about: life, score, place, direction, and the last input that has counted. -/
structure Standing (F : Type) where
  vitals : Vitals
  x : F
  y : F
  z : F
  yaw : Int16
  pitch : Int16
  moveX : Int8
  moveY : Int8
  lastInputSeq : UInt32

variable {F : Type}

namespace GamePlayer

/-- The life and the score of a player. -/
def vitals (player : GamePlayer F) : Vitals :=
  ⟨player.hp, player.alive, player.kills, player.deaths⟩

/-- The standing of a player. -/
def standing (player : GamePlayer F) : Standing F :=
  ⟨player.vitals, player.x, player.y, player.z, player.yaw, player.pitch, player.moveX, player.moveY,
    player.lastInputSeq⟩

variable [FloatArith F]

@[simp] theorem vitals_moveTowards (player : GamePlayer F) (input : GameInputPayload F)
    (maxStep : F) : (player.moveTowards input maxStep).vitals = player.vitals := by
  simp only [moveTowards]
  split
  · rfl
  · split <;> rfl

@[simp] theorem vitals_onInput (player : GamePlayer F) (input : GameInputPayload F) :
    (player.onInput input).vitals = player.vitals := by
  simp only [onInput]
  split
  · rw [vitals_moveTowards]
    rfl
  · rfl

@[simp] theorem vitals_move (matchOver : Bool) (dt : F) (player : GamePlayer F) :
    (player.move matchOver dt).vitals = player.vitals := by
  simp only [move]
  split
  · rfl
  · split <;> rfl

@[simp] theorem standing_coolDown (dt : F) (player : GamePlayer F) :
    (player.coolDown dt).standing = player.standing := by
  simp only [coolDown]
  split
  · rfl
  · split <;> rfl

/-- A tick does not change who is alive. -/
theorem alive_tick (player : GamePlayer F) (matchOver : Bool) (dt : F) :
    ((player.coolDown dt).move matchOver dt).alive = player.alive := by
  have hvitals : ((player.coolDown dt).move matchOver dt).vitals = player.vitals :=
    (vitals_move _ _ _).trans (congrArg Standing.vitals (standing_coolDown dt player))
  exact congrArg Vitals.alive hvitals

/-- The target of a shot that it survives. -/
def hurt (player : GamePlayer F) : GamePlayer F := { player with hp := player.hp - kFireDamage }

/-- The target of a shot that it does not survive. -/
def killed (player : GamePlayer F) : GamePlayer F :=
  { player with
    hp := 0, alive := false, respawnTimer := kRespawnDelay, deaths := player.deaths + 1 }

/-- Who has killed somebody. -/
def scored (player : GamePlayer F) : GamePlayer F := { player with kills := player.kills + 1 }

end GamePlayer

/-! ## Events -/

/-- The event of a hit. -/
def hitEvent (targetId shooterId : UInt32) : GameEventPayload where
  eventType := .kHit
  targetId := targetId
  value := -25
  extra := shooterId

/-- The event of a kill. -/
def killEvent (targetId shooterId : UInt32) : GameEventPayload where
  eventType := .kKill
  targetId := targetId
  value := 0
  extra := shooterId

/-- The event of a request to respawn. -/
def respawnEvent (playerId : UInt32) : GameEventPayload where
  eventType := .kRespawn
  targetId := playerId
  value := 100
  extra := 0

@[simp] theorem hitEvent_targetId (t p : UInt32) : (hitEvent t p).targetId = t := rfl
@[simp] theorem killEvent_targetId (t p : UInt32) : (killEvent t p).targetId = t := rfl
@[simp] theorem killEvent_extra (t p : UInt32) : (killEvent t p).extra = p := rfl

theorem kHit_ne_kKill : GameEventType.kHit ≠ .kKill := by decide
theorem kRespawn_ne_kHit : GameEventType.kRespawn ≠ .kHit := by decide
theorem kRespawn_ne_kKill : GameEventType.kRespawn ≠ .kKill := by decide

namespace GameRoom

theorem findPlayer_modifyPlayer (room : GameRoom F) (p q : UInt32) (f : GamePlayer F → GamePlayer F) :
    (room.modifyPlayer p f).findPlayer q
      = if q = p then (room.findPlayer p).map f else room.findPlayer q := by
  by_cases hq : q = p
  · subst hq
    simp [modifyPlayer, findPlayer]
  · simp [modifyPlayer, findPlayer, hq]

/-- Every player is filed under its own id, which is not zero. -/
def Filed (room : GameRoom F) : Prop :=
  ∀ q player, room.findPlayer q = some player → player.playerId = q ∧ q ≠ 0

theorem applyWeapon_cases (room : GameRoom F) (p : UInt32) (weaponId : UInt8) :
    room.applyWeapon p weaponId = room
      ∨ weaponId ≤ 5
        ∧ room.applyWeapon p weaponId = room.modifyPlayer p fun player => { player with weaponId } := by
  unfold applyWeapon
  cases room.findPlayer p with
  | none => exact .inl rfl
  | some player =>
      dsimp only
      split
      · exact .inl rfl
      split
      · exact .inl rfl
      · rename_i hle
        exact .inr ⟨UInt8.not_lt.mp hle, rfl⟩

variable [FloatArith F]

/-- The room has heard of the player's request to come back and does not let it. -/
def Refuses (room : GameRoom F) (player : GamePlayer F) : Prop :=
  player.alive = true ∨ room.matchOver = true ∨ lt 0.0 player.respawnTimer = true

instance (room : GameRoom F) (player : GamePlayer F) : Decidable (room.Refuses player) :=
  inferInstanceAs (Decidable (_ ∨ _ ∨ _))

/-- What a message of type `type` from player `p` can come to: the room after it, and the events that
are announced. -/
inductive Deed (type : GameMsgType) (room : GameRoom F) (p : UInt32) :
    GameRoom F → List GameEventPayload → Prop
  | idle (hother : type ≠ .kC2SRespawn) : Deed type room p room []
  | conduct {f : GamePlayer F → GamePlayer F} (hother : type ≠ .kC2SRespawn)
      (hvitals : ∀ player, (f player).vitals = player.vitals)
      (hover : room.matchOver = true → ∀ player, (f player).standing = player.standing) :
      Deed type room p (room.modifyPlayer p f) []
  | hit {t : UInt32} {shooter target : GamePlayer F} (htype : type = .kC2SFire)
      (hmatch : room.matchOver = false) (hshooter : room.findPlayer p = some shooter)
      (haim : shooter.alive = true) (htarget : room.findPlayer t = some target)
      (hlive : target.alive = true) (hne : t ≠ p) (hhp : kFireDamage < target.hp) :
      Deed type room p (room.modifyPlayer t GamePlayer.hurt) [hitEvent t p]
  | kill {t : UInt32} {shooter target : GamePlayer F} (htype : type = .kC2SFire)
      (hmatch : room.matchOver = false) (hshooter : room.findPlayer p = some shooter)
      (haim : shooter.alive = true) (htarget : room.findPlayer t = some target)
      (hlive : target.alive = true) (hne : t ≠ p) (hhp : target.hp ≤ kFireDamage) :
      Deed type room p ((room.modifyPlayer t GamePlayer.killed).modifyPlayer p GamePlayer.scored)
        [hitEvent t p, killEvent t p]
  | revive {player : GamePlayer F} (htype : type = .kC2SRespawn)
      (hplayer : room.findPlayer p = some player) (hgranted : ¬room.Refuses player) :
      Deed type room p (room.modifyPlayer p fun player => player.respawn p) [respawnEvent p]
  | refuse {player : GamePlayer F} (htype : type = .kC2SRespawn)
      (hplayer : room.findPlayer p = some player) (hrefused : room.Refuses player) :
      Deed type room p room [respawnEvent p]

/-! ## The operations of the room are deeds -/

variable {type : GameMsgType} {room : GameRoom F}

theorem applyInput_cases (room : GameRoom F) (p : UInt32) (input : GameInputPayload F) :
    room.applyInput p input = room
      ∨ room.matchOver = false
        ∧ room.applyInput p input = room.modifyPlayer p fun player => player.onInput input := by
  unfold applyInput
  cases room.findPlayer p with
  | none => exact .inl rfl
  | some player =>
      dsimp only
      split
      · exact .inl rfl
      split
      · exact .inl rfl
      · -- an input counts only as long as the match goes on
        rename_i hguard _
        simp only [Bool.or_eq_true, not_or, Bool.not_eq_true] at hguard
        exact .inr ⟨hguard.2, rfl⟩

theorem applyRespawn_cases {p : UInt32} {player : GamePlayer F}
    (hplayer : room.findPlayer p = some player) :
    room.Refuses player ∧ room.applyRespawn p = room
      ∨ ¬room.Refuses player
        ∧ room.applyRespawn p = room.modifyPlayer p fun player => player.respawn p := by
  unfold applyRespawn
  rw [hplayer]
  dsimp only
  split
  · rename_i hguard
    rw [Bool.or_eq_true] at hguard
    exact .inl ⟨hguard.elim .inl fun h => .inr (.inl h), rfl⟩
  split
  · rename_i htimer
    exact .inl ⟨.inr (.inr htimer), rfl⟩
  · rename_i hguard htimer
    rw [Bool.or_eq_true, not_or] at hguard
    refine .inr ⟨?_, rfl⟩
    rintro (halive | hover | hlt)
    · exact hguard.1 halive
    · exact hguard.2 hover
    · exact htimer hlt

theorem deed_applyInput (hother : type ≠ .kC2SRespawn) (p : UInt32) (input : GameInputPayload F) :
    Deed type room p (room.applyInput p input) [] := by
  obtain heq | ⟨hmatch, heq⟩ := room.applyInput_cases p input
  · rw [heq]
    exact .idle hother
  · rw [heq]
    apply Deed.conduct hother
    · intro player
      exact GamePlayer.vitals_onInput player input
    · intro hover
      exact absurd hmatch (by simp [hover])

theorem deed_applyWeapon (hother : type ≠ .kC2SRespawn) (p : UInt32) (weaponId : UInt8) :
    Deed type room p (room.applyWeapon p weaponId) [] := by
  obtain heq | ⟨-, heq⟩ := room.applyWeapon_cases p weaponId
  · rw [heq]
    exact .idle hother
  · rw [heq]
    exact .conduct hother (fun _ => rfl) fun _ _ => rfl

theorem deed_applyProfile (hother : type ≠ .kC2SRespawn) (p : UInt32) (name : Bytes) :
    Deed type room p (room.applyProfile p name) [] :=
  .conduct hother (fun _ => rfl) fun _ _ => rfl

theorem deed_applyRespawn {p : UInt32} {player : GamePlayer F}
    (hplayer : room.findPlayer p = some player) (htype : type = .kC2SRespawn) :
    Deed type room p (room.applyRespawn p) [respawnEvent p] := by
  obtain ⟨hrefused, heq⟩ | ⟨hgranted, heq⟩ := applyRespawn_cases hplayer
  · rw [heq]
    exact .refuse htype hplayer hrefused
  · rw [heq]
    exact .revive htype hplayer hgranted

/-! ## Shots -/

/-- What a shot of player `p` can come to. -/
inductive Shot (room : GameRoom F) (p : UInt32) : GameRoom F → List GameEventPayload → Prop
  | miss : Shot room p room []
  | hit {t : UInt32} {shooter target : GamePlayer F} (hmatch : room.matchOver = false)
      (hshooter : room.findPlayer p = some shooter) (haim : shooter.alive = true)
      (htarget : room.findPlayer t = some target) (hlive : target.alive = true) (hne : t ≠ p)
      (hhp : kFireDamage < target.hp) :
      Shot room p (room.modifyPlayer t GamePlayer.hurt) [hitEvent t p]
  | kill {t : UInt32} {shooter target : GamePlayer F} (hmatch : room.matchOver = false)
      (hshooter : room.findPlayer p = some shooter) (haim : shooter.alive = true)
      (htarget : room.findPlayer t = some target) (hlive : target.alive = true) (hne : t ≠ p)
      (hhp : target.hp ≤ kFireDamage) :
      Shot room p ((room.modifyPlayer t GamePlayer.killed).modifyPlayer p GamePlayer.scored)
        [hitEvent t p, killEvent t p]

/-- One more candidate: the best so far stays, or it is the candidate, who lives and is not the
shooter. -/
theorem considerTarget_cases (shooter : GamePlayer F) (fire : GameFirePayload F)
    (best : Option UInt32 × F) (entry : UInt32 × GamePlayer F) :
    (considerTarget shooter fire best entry).1 = best.1
      ∨ (considerTarget shooter fire best entry).1 = some entry.1
        ∧ entry.2.playerId ≠ shooter.playerId ∧ entry.2.alive = true := by
  simp only [considerTarget]
  split
  · exact .inl rfl
  · rename_i hguard
    simp only [Bool.or_eq_true, decide_eq_true_eq, Bool.not_eq_true', not_or,
      Bool.not_eq_false] at hguard
    split
    · exact .inl rfl
    split
    · exact .inr ⟨rfl, hguard.1, hguard.2⟩
    · exact .inl rfl

/-- Whoever is hit is a living player of the room, and not the shooter. -/
theorem findHitTarget_eq_some {ord : IterOrder UInt32} {shooter : GamePlayer F}
    {fire : GameFirePayload F} {key : UInt32}
    (h : room.findHitTarget ord shooter fire = some key) :
    ∃ target, room.findPlayer key = some target ∧ target.playerId ≠ shooter.playerId
      ∧ target.alive = true := by
  -- on the loop: the best so far is one of the players that have been looked at
  have hloop : ∀ l : List (UInt32 × GamePlayer F),
      (∀ entry ∈ l, room.findPlayer entry.1 = some entry.2) →
      ∀ key, (l.foldl (considerTarget shooter fire) (none, kMaxHitRange)).1 = some key →
        ∃ target, room.findPlayer key = some target ∧ target.playerId ≠ shooter.playerId
          ∧ target.alive = true := by
    intro l hl
    apply List.foldlRecOn (motive := fun best : Option UInt32 × F => ∀ key, best.1 = some key →
      ∃ target, room.findPlayer key = some target ∧ target.playerId ≠ shooter.playerId
        ∧ target.alive = true)
    · intro key hkey
      cases hkey
    · intro best ih entry hentry key hkey
      rcases considerTarget_cases shooter fire best entry with hsame | ⟨hnew, hother, hlive⟩
      · exact ih key (hsame.symm.trans hkey)
      · obtain rfl : entry.1 = key := Option.some.inj (hnew.symm.trans hkey)
        exact ⟨entry.2, hl entry hentry, hother, hlive⟩
  apply hloop _ _ key h
  intro entry hentry
  exact UnorderedMap.mem_pairs_iff.mp ((UnorderedMap.iterate_perm ord room.players).mem_iff.mp hentry)

/-- The events that the manager announces for a shot. -/
def fireEvents (result : FireResult F) (p : UInt32) : List GameEventPayload :=
  if result.targetId ≠ 0 then
    hitEvent result.targetId p :: if result.killed then [killEvent result.targetId p] else []
  else []

theorem shot_hit (hfiled : room.Filed) {p t : UInt32} {shooter target : GamePlayer F}
    (hmatch : room.matchOver = false) (hshooter : room.findPlayer p = some shooter)
    (haim : shooter.alive = true) (htarget : room.findPlayer t = some target)
    (hlive : target.alive = true) (hne : t ≠ p) :
    Shot room p (room.hit p t target).room (fireEvents (room.hit p t target) p) := by
  obtain ⟨hid, hnz⟩ := hfiled t target htarget
  have hid0 : target.playerId ≠ 0 := by rwa [hid]
  unfold hit
  split
  · rename_i hle
    rw [fireEvents, if_pos hid0, if_pos rfl, hid]
    exact .kill hmatch hshooter haim htarget hlive hne hle
  · rename_i hgt
    -- the new `hp` has been computed from the record that is there
    have hsame : room.modifyPlayer t (fun player => { player with hp := target.hp - kFireDamage })
        = room.modifyPlayer t GamePlayer.hurt := by
      unfold modifyPlayer
      congr 1
      apply UnorderedMap.modify_congr
      intro player hplayer
      obtain rfl : player = target := Option.some.inj (hplayer.symm.trans htarget)
      rfl
    rw [fireEvents, if_pos hid0]
    dsimp only
    rw [hsame, hid]
    exact .hit hmatch hshooter haim htarget hlive hne (UInt16.not_le.mp hgt)

theorem shot_applyFire (hfiled : room.Filed) (ord : IterOrder UInt32) (p : UInt32)
    (fire : GameFirePayload F) :
    Shot room p (room.applyFire ord p fire).room (fireEvents (room.applyFire ord p fire) p) := by
  unfold applyFire
  split
  · exact .miss
  rename_i hmatch
  cases hshooter : room.findPlayer p with
  | none => exact .miss
  | some shooter =>
      dsimp only
      split
      · exact .miss
      rename_i haim
      split
      · exact .miss
      cases hfound : room.findHitTarget ord shooter _ with
      | none => exact .miss
      | some t =>
          obtain ⟨target, htarget, hother, hlive⟩ := findHitTarget_eq_some hfound
          have hne : t ≠ p := by
            rw [(hfiled t target htarget).1, (hfiled p shooter hshooter).1] at hother
            exact hother
          simp only [htarget]
          exact shot_hit hfiled (Bool.not_eq_true _ ▸ hmatch) hshooter (by simpa using haim) htarget
            hlive hne

/-! ## Deeds and their events -/

theorem Shot.deed {p : UInt32} {room' : GameRoom F} {evs : List GameEventPayload}
    (h : Shot room p room' evs) (htype : type = .kC2SFire) : Deed type room p room' evs := by
  cases h with
  | miss =>
      apply Deed.idle
      rw [htype]
      decide
  | hit hmatch hshooter haim htarget hlive hne hhp =>
      exact .hit htype hmatch hshooter haim htarget hlive hne hhp
  | kill hmatch hshooter haim htarget hlive hne hhp =>
      exact .kill htype hmatch hshooter haim htarget hlive hne hhp

/-- The events of a deed differ, and somebody is there to be told. -/
theorem Deed.told {room' : GameRoom F} {p : UInt32} {evs : List GameEventPayload}
    (h : Deed type room p room' evs) :
    evs = [] ∨ evs.Nodup ∧ ∃ q player, room'.findPlayer q = some player := by
  have hmodified : ∀ {room : GameRoom F} {q : UInt32} {player : GamePlayer F}
      (f : GamePlayer F → GamePlayer F), room.findPlayer q = some player →
      (room.modifyPlayer q f).findPlayer q = some (f player) := by
    intro room q player f hplayer
    rw [findPlayer_modifyPlayer, if_pos rfl, hplayer, Option.map_some]
  cases h with
  | idle hother => exact .inl rfl
  | conduct hother hvitals hover => exact .inl rfl
  | hit htype hmatch hshooter haim htarget hlive hne hhp =>
      exact .inr ⟨List.nodup_singleton _, _, _, hmodified _ htarget⟩
  | @kill t shooter target htype hmatch hshooter haim htarget hlive hne hhp =>
      have hshooter' : (room.modifyPlayer t GamePlayer.killed).findPlayer p = some shooter := by
        rw [findPlayer_modifyPlayer, if_neg hne.symm, hshooter]
      refine .inr ⟨?_, _, _, hmodified _ hshooter'⟩
      rw [List.nodup_cons, List.mem_singleton]
      exact ⟨fun heq => kHit_ne_kKill (congrArg GameEventPayload.eventType heq),
        List.nodup_singleton _⟩
  | revive htype hplayer hgranted =>
      exact .inr ⟨List.nodup_singleton _, _, _, hmodified _ hplayer⟩
  | refuse htype hplayer hrefused => exact .inr ⟨List.nodup_singleton _, _, _, hplayer⟩

/-- The datagrams of a deed carry the events of the deed. -/
theorem Deed.events_eq {room' : GameRoom F} {p : UInt32} {evs : List GameEventPayload}
    (h : Deed type room p room' evs) (ord : IterOrder UInt32) :
    events (evs.flatMap (GameRoomManager.sendEvent ord room')) = evs := by
  obtain rfl | ⟨hnodup, q, player, hplayer⟩ := h.told
  · rfl
  · exact GameRoomManager.events_announce (GameRoomManager.playerCount_pos hplayer) hnodup

end GameRoom

end LightNet.Game
