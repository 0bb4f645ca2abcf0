/-
# LightNet.Game.Ledger — kill accounting over whole runs.

Every input is a move of the scoreboard.  What one move keeps, soundness and the two sums that count
the kills, then holds after any number of them, and what is announced in the next step can be read off
the move that it is.
-/
import LightNet.Game.Scores

namespace LightNet.Game

open LightNet.Foundation LightNet.Core LightNet.Net

variable {F : Type}

namespace GameRoomManager

/-! ## Sums over all players -/

/-- The sum over all players in all rooms. -/
def total (m : GameRoomManager F) (f : GamePlayer F → Nat) : Nat :=
  UnorderedMap.tally (fun room => UnorderedMap.tally f room.players) m.rooms

/-- The players of the only room. -/
def onlyPlayers (m : GameRoomManager F) : UnorderedMap UInt32 (GamePlayer F) :=
  ((m.findRoom kSingleRoomId).map GameRoom.players).getD ∅

theorem total_eq {m : GameRoomManager F} (hone : m.OneRoom) (f : GamePlayer F → Nat) :
    m.total f = UnorderedMap.tally f m.onlyPlayers := by
  have hempty : m.rooms.keys.toFinset.erase kSingleRoomId = ∅ := by
    rw [Finset.eq_empty_iff_forall_notMem]
    intro r hr
    rw [Finset.mem_erase, List.mem_toFinset, ← AList.mem_keys] at hr
    obtain ⟨hne, hmem⟩ := hr
    obtain ⟨room, hroom⟩ := UnorderedMap.mem_iff_lookup.mp hmem
    exact hne (hone r room hroom)
  rw [total, UnorderedMap.tally_eq_add _ _ kSingleRoomId, hempty, Finset.sum_empty, Nat.add_zero,
    UnorderedMap.counts, onlyPlayers, findRoom]
  cases m.rooms.lookup kSingleRoomId <;> rfl

theorem lookup_onlyPlayers (m : GameRoomManager F) (q : UInt32) :
    m.onlyPlayers.lookup q = m.record ⟨kSingleRoomId, q⟩ := by
  rw [onlyPlayers, record]
  cases m.findRoom kSingleRoomId <;> rfl

/-! ## Runs -/

/-- The manager is in order, and `k` kills have been announced so far. -/
structure Accounted (m : GameRoomManager F) (k : Nat) : Prop where
  refines : ∃ e, Refines m e
  oneRoom : m.OneRoom
  sound : m.scores.Sound
  kills : m.total (fun player => player.kills.toNat) ≡ k [MOD 2 ^ 16]
  deaths : m.total (fun player => player.deaths.toNat) ≡ k [MOD 2 ^ 16]

theorem accounted_new (tickIntervalMs : UInt32) :
    Accounted (new tickIntervalMs : GameRoomManager F) 0 where
  refines := ⟨⊥, refines_new tickIntervalMs⟩
  oneRoom := oneRoom_new tickIntervalMs
  sound := by
    intro q v hv
    cases hv
  kills := rfl
  deaths := rfl

variable [FloatArith F] [FloatBits F]

theorem Accounted.next {m : GameRoomManager F} {k : Nat} (h : Accounted m k) (i : Input) :
    Accounted (m.next i) (k + Scoreboard.killCount (events (m.serve i).1)) := by
  obtain ⟨e, hm⟩ := h.refines
  have hone' := h.oneRoom.next hm i
  have hmove := serve_move hm h.oneRoom i
  have hcounts : ∀ (m : GameRoomManager F) (g : Vitals → Nat),
      UnorderedMap.counts (fun player : GamePlayer F => g player.vitals) m.onlyPlayers
        = Scoreboard.countOf g m.scores := by
    intro m g
    funext q
    rw [UnorderedMap.counts, lookup_onlyPlayers, Scoreboard.countOf, scores, Option.map_map]
    rfl
  have hkills := h.kills
  have hdeaths := h.deaths
  rw [total_eq h.oneRoom] at hkills hdeaths
  obtain ⟨hkills', hdeaths'⟩ := hmove.ledger (hcounts m fun v => v.kills.toNat)
    (hcounts m fun v => v.deaths.toNat) (hcounts (m.next i) fun v => v.kills.toNat)
    (hcounts (m.next i) fun v => v.deaths.toNat) hkills hdeaths
  refine ⟨refines_next hm i, hone', hmove.sound h.sound, ?_, ?_⟩
  · rw [total_eq hone']
    exact hkills'
  · rw [total_eq hone']
    exact hdeaths'

/-- The kill events of a run of inputs. -/
def killsAnnounced (m : GameRoomManager F) (inputs : List Input) : Nat :=
  ((outputs next (fun m i => Scoreboard.killCount (events (m.serve i).1)) m inputs)).sum

theorem Accounted.run {m : GameRoomManager F} {k : Nat} (h : Accounted m k) (inputs : List Input) :
    Accounted (run GameRoomManager.next m inputs) (k + m.killsAnnounced inputs) := by
  induction inputs generalizing m k with
  | nil => exact h
  | cons i inputs ih =>
      have hrest := ih (h.next i)
      rw [Nat.add_assoc] at hrest
      exact hrest

/-! ## The next step -/

section Next

variable {m : GameRoomManager F} {k : Nat}

/-- A player outside the only room is nowhere, before and after. -/
theorem hp_next_of_scores (hone : m.OneRoom) {i : Input} (hone' : (m.next i).OneRoom)
    {b : PlayerBinding}
    (hb : b.roomId = kSingleRoomId → (m.next i).scores.hp b.playerId = m.scores.hp b.playerId) :
    (m.next i).hp b = m.hp b := by
  obtain ⟨r, p⟩ := b
  by_cases hr : r = kSingleRoomId
  · subst hr
    rw [hp_eq_scores, hp_eq_scores]
    exact hb rfl
  · rw [hp, hp, hone'.record_eq_none hr, hone.record_eq_none hr]

/-- An announced hit takes 25 from its target and nothing from anybody else. -/
theorem Accounted.hit_takes (h : Accounted m k) (i : Input) {ev : GameEventPayload}
    (hev : ev ∈ events (m.serve i).1) (htype : ev.eventType = .kHit) :
    ev.value = -25
      ∧ (∃ n n', m.hp (targetOf ev) = some n ∧ (m.next i).hp (targetOf ev) = some n'
        ∧ n'.toNat + 25 = n.toNat)
      ∧ ∀ b, b ≠ targetOf ev → (m.next i).hp b = m.hp b := by
  obtain ⟨e, hm⟩ := h.refines
  have hmove := serve_move hm h.oneRoom i
  obtain ⟨⟨n, n', hn, hn', hless⟩, hothers⟩ := hmove.hp_of_hit h.sound hev htype
  refine ⟨hmove.value_of_hit hev htype, ⟨n, n', ?_, ?_, hless⟩, ?_⟩
  · rw [targetOf, hp_eq_scores, hn]
  · rw [targetOf, hp_eq_scores, hn']
  · intro b hb
    apply hp_next_of_scores h.oneRoom (h.oneRoom.next hm i)
    intro hr
    apply hothers
    intro hp
    exact hb (by rw [targetOf, ← hr, ← hp])

/-- A shot that announces no hit takes nothing. -/
theorem Accounted.miss_takes_nothing (h : Accounted m k) {env : Environment} {packet : GamePacket}
    {peer : SockAddrIn} (hfire : packet.header.msgType = .kC2SFire)
    (hmiss : ∀ ev ∈ events (m.serve (.datagram env packet peer)).1, ev.eventType ≠ .kHit)
    (b : PlayerBinding) : (m.next (.datagram env packet peer)).hp b = m.hp b := by
  obtain ⟨e, hm⟩ := h.refines
  have hmove := serve_move hm h.oneRoom (.datagram env packet peer)
  rw [label, hfire] at hmove
  exact hp_next_of_scores h.oneRoom (h.oneRoom.next hm _) fun _ => hmove.hp_of_miss hmiss _

/-- The announced kills are the deaths of the step. -/
theorem Accounted.kill_iff_dies (h : Accounted m k) (i : Input) (b : PlayerBinding) :
    (∃ ev ∈ events (m.serve i).1, ev.eventType = .kKill ∧ targetOf ev = b)
      ↔ m.alive b = some true ∧ (m.next i).alive b = some false := by
  obtain ⟨e, hm⟩ := h.refines
  have hmove := serve_move hm h.oneRoom i
  constructor
  · rintro ⟨ev, hev, htype, heq⟩
    obtain ⟨⟨hbefore, hafter⟩, -⟩ := hmove.of_kill hev htype
    rw [← heq, targetOf, alive_eq_scores, alive_eq_scores]
    exact ⟨hbefore, hafter⟩
  · rintro ⟨hbefore, hafter⟩
    obtain ⟨r, q⟩ := b
    obtain rfl : r = kSingleRoomId := by
      by_contra hr
      rw [alive, h.oneRoom.record_eq_none hr] at hbefore
      cases hbefore
    rw [alive_eq_scores] at hbefore hafter
    obtain ⟨ev, hev, htype, htarget⟩ := hmove.of_dies ⟨hbefore, hafter⟩
    exact ⟨ev, hev, htype, by rw [targetOf, htarget]⟩

/-- The extra of an announced kill is who sent the shot, another player who lives. -/
theorem Accounted.kill_by_shooter (h : Accounted m k) (i : Input) {ev : GameEventPayload}
    (hev : ev ∈ events (m.serve i).1) (htype : ev.eventType = .kKill) :
    shooterOf ev ≠ targetOf ev
      ∧ m.alive (shooterOf ev) = some true ∧ (m.next i).alive (shooterOf ev) = some true
      ∧ ∃ env packet peer b, i = .datagram env packet peer ∧ m.sender peer packet = some b
        ∧ b.playerId = ev.extra := by
  obtain ⟨e, hm⟩ := h.refines
  obtain ⟨-, hne, hbefore, hafter, hlabel⟩ := (serve_move hm h.oneRoom i).of_kill hev htype
  refine ⟨?_, ?_, ?_, ?_⟩
  · intro heq
    exact hne (congrArg PlayerBinding.playerId heq)
  · rw [shooterOf, alive_eq_scores, hbefore]
  · rw [shooterOf, alive_eq_scores, hafter]
  · cases i with
    | tick ord => cases hlabel
    | datagram env packet peer =>
        have hwho := congrArg Prod.snd (Option.some.inj hlabel)
        obtain ⟨b, hb, hid⟩ := Option.map_eq_some_iff.mp hwho
        exact ⟨env, packet, peer, b, rfl, hb, hid⟩

end Next

/-- **Kill accounting is exact.** After any packets and ticks, whatever comes next: a shot that
announces a hit takes exactly 25 from the target of the event and nothing from anybody else, and a
shot that announces none takes nothing; a kill is announced exactly for who goes from alive to dead,
with the shooter, another player who lives; and the kills and the deaths of all players are, modulo
`2 ^ 16`, as many as the kills that have been announced. -/
theorem kill_accounting (tickIntervalMs : UInt32) (inputs : List Input) :
    let m : GameRoomManager F := run next (new tickIntervalMs) inputs
    (∀ i,
      (∀ env packet peer, i = .datagram env packet peer → packet.header.msgType = .kC2SFire →
        (∀ ev ∈ events (m.serve i).1, ev.eventType = .kHit → ev.value = -25
          ∧ (∃ n n', m.hp (targetOf ev) = some n ∧ (m.next i).hp (targetOf ev) = some n'
            ∧ n'.toNat + 25 = n.toNat)
          ∧ ∀ b, b ≠ targetOf ev → (m.next i).hp b = m.hp b)
        ∧ ((∀ ev ∈ events (m.serve i).1, ev.eventType ≠ .kHit) → ∀ b, (m.next i).hp b = m.hp b))
      ∧ (∀ b, (∃ ev ∈ events (m.serve i).1, ev.eventType = .kKill ∧ targetOf ev = b)
          ↔ m.alive b = some true ∧ (m.next i).alive b = some false)
      ∧ (∀ ev ∈ events (m.serve i).1, ev.eventType = .kKill → shooterOf ev ≠ targetOf ev
          ∧ m.alive (shooterOf ev) = some true ∧ (m.next i).alive (shooterOf ev) = some true
          ∧ ∃ env packet peer b, i = .datagram env packet peer ∧ m.sender peer packet = some b
            ∧ b.playerId = ev.extra)
      ∧ ∀ ev ∈ events (m.serve i).1, ∀ b player, (m.next i).record b = some player →
          ∃ d ∈ (m.serve i).1, d.peer = player.peer ∧ eventOf d = some ev)
    ∧ m.total (fun player => player.kills.toNat)
        ≡ (new tickIntervalMs : GameRoomManager F).killsAnnounced inputs [MOD 2 ^ 16]
    ∧ m.total (fun player => player.deaths.toNat)
        ≡ (new tickIntervalMs : GameRoomManager F).killsAnnounced inputs [MOD 2 ^ 16] := by
  intro m
  have hacc : Accounted m _ := (accounted_new tickIntervalMs).run inputs
  rw [Nat.zero_add] at hacc
  obtain ⟨e, hm⟩ := hacc.refines
  refine ⟨?_, hacc.kills, hacc.deaths⟩
  intro i
  refine ⟨?_, hacc.kill_iff_dies i, fun ev => hacc.kill_by_shooter i,
    fun ev hev b player hplayer => everyone_told hm hacc.oneRoom i hev hplayer⟩
  rintro env packet peer rfl hfire
  exact ⟨fun ev => hacc.hit_takes _, hacc.miss_takes_nothing hfire⟩

end GameRoomManager

end LightNet.Game
