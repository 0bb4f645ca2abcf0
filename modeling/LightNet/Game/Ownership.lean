/-
# LightNet.Game.Ownership — a bound peer acts only as itself.

The header of a packet names a room and a player, and anybody can write any header.  For an address
that is bound, the binding decides and the header does not count: two packets that differ in the
header only are handled alike, and what they change belongs to the bound player.  The one exception
is a shot, which also hits its target.
-/
import LightNet.Game.Handling
import LightNet.Game.Malformed

namespace LightNet.Game

open LightNet.Foundation LightNet.Core LightNet.Net

variable {F : Type}

namespace GameRoom

/-- `victim` is a living player, and what a shot has changed of it is `hp`, `alive`, `respawn_timer`
and `deaths` at most. -/
def Wounded (before after : Option (GamePlayer F)) : Prop :=
  ∃ target hp alive respawnTimer deaths, before = some target ∧ target.alive = true
    ∧ after = some { target with hp, alive, respawnTimer, deaths }

variable [FloatArith F] {type : GameMsgType} {room room' : GameRoom F} {p : UInt32}
  {evs : List GameEventPayload}

/-- A deed leaves the other players alone, or it is a shot that wounds one of them. -/
theorem Deed.others (h : Deed type room p room' evs) :
    (∀ q, q ≠ p → room'.findPlayer q = room.findPlayer q)
      ∨ type = .kC2SFire ∧ ∃ t, t ≠ p ∧ Wounded (room.findPlayer t) (room'.findPlayer t)
        ∧ ∀ q, q ≠ p → q ≠ t → room'.findPlayer q = room.findPlayer q := by
  cases h with
  | idle hother => exact .inl fun q _ => rfl
  | conduct hother hvitals hover =>
      left
      intro q hq
      rw [findPlayer_modifyPlayer, if_neg hq]
  | @hit t shooter target htype hmatch hshooter haim htarget hlive hne hhp =>
      refine .inr ⟨htype, t, hne, ?_, ?_⟩
      · rw [findPlayer_modifyPlayer, if_pos rfl, htarget]
        exact ⟨target, target.hp - kFireDamage, target.alive, target.respawnTimer, target.deaths, rfl,
          hlive, rfl⟩
      · intro q _ hq
        rw [findPlayer_modifyPlayer, if_neg hq]
  | @kill t shooter target htype hmatch hshooter haim htarget hlive hne hhp =>
      refine .inr ⟨htype, t, hne, ?_, ?_⟩
      · rw [findPlayer_modifyPlayer, if_neg hne, findPlayer_modifyPlayer, if_pos rfl, htarget]
        exact ⟨target, 0, false, kRespawnDelay, target.deaths + 1, rfl, hlive, rfl⟩
      · intro q hp hq
        rw [findPlayer_modifyPlayer, if_neg hp, findPlayer_modifyPlayer, if_neg hq]
  | revive htype hplayer hgranted =>
      left
      intro q hq
      rw [findPlayer_modifyPlayer, if_neg hq]
  | refuse htype hplayer hrefused => exact .inl fun q _ => rfl

end GameRoom

namespace GameRoomManager

variable {m : GameRoomManager F} {e : Bytes ≃. PlayerBinding} {peer : SockAddrIn}
  {b : PlayerBinding} {packet packet' : GamePacket}

/-! ## The header does not count -/

/-- The handlers of a bound sender read the payload, and nothing of the header. -/
theorem handleAs_congr (hb : m.findBinding peer = some b) {α : Type}
    {decode : GamePacket → Option α} (hdecode : decode packet = decode packet')
    (act : GameRoomManager F → PlayerBinding → GameRoom F → α → Handled F) :
    m.handleAs packet peer decode act = m.handleAs packet' peer decode act := by
  simp only [handleAs, resolveAndRefreshPeer, hb, hdecode]

variable [FloatArith F] [FloatBits F]

theorem handlePacket_congr (hb : m.findBinding peer = some b)
    (htype : packet.header.msgType = packet'.header.msgType)
    (hpayload : packet.payload = packet'.payload) (hping : packet.header.msgType ≠ .kC2SPing)
    (env : Environment) : m.handlePacket env packet peer = m.handlePacket env packet' peer := by
  obtain ⟨header, payload⟩ := packet
  obtain ⟨header', payload'⟩ := packet'
  obtain rfl : payload = payload' := hpayload
  have htype : header.msgType = header'.msgType := htype
  have hping : header'.msgType ≠ .kC2SPing := htype ▸ hping
  have hinput : m.handleInput ⟨header, payload⟩ peer = m.handleInput ⟨header', payload⟩ peer := by
    apply handleAs_congr hb
    rfl
  have hfire : m.handleFire env ⟨header, payload⟩ peer = m.handleFire env ⟨header', payload⟩ peer := by
    apply handleAs_congr hb
    rfl
  have hchat : m.handleChat env ⟨header, payload⟩ peer = m.handleChat env ⟨header', payload⟩ peer := by
    apply handleAs_congr hb
    rfl
  have hweapon : m.handleWeapon ⟨header, payload⟩ peer = m.handleWeapon ⟨header', payload⟩ peer := by
    apply handleAs_congr hb
    rfl
  have hrespawn : m.handleRespawn env ⟨header, payload⟩ peer
      = m.handleRespawn env ⟨header', payload⟩ peer := by
    apply handleAs_congr hb
    rfl
  have hprofile : m.handleProfile ⟨header, payload⟩ peer
      = m.handleProfile ⟨header', payload⟩ peer := by
    apply handleAs_congr hb
    rfl
  have hjoin : m.handleJoin ⟨header, payload⟩ peer = m.handleJoin ⟨header', payload⟩ peer := rfl
  simp only [handlePacket, htype, if_neg hping, hinput, hfire, hchat, hweapon, hrespawn, hprofile,
    hjoin]

/-- The answer to a ping from the player that `b` names. -/
def pong (b : PlayerBinding) (env : Environment) (ping : GamePacket) (peer : SockAddrIn) :
    List SendTo :=
  match GameCodec.decodePing ping with
  | none => []
  | some clientSend =>
      [sendBuffer (GameCodec.buildPacket .kS2CPong b.roomId b.playerId ping.header.seq
        ping.header.tick (GameCodec.encodePong clientSend env.recvNs env.sendNs)) peer]

/-- A ping of a bound peer is answered under the ids of its player, and changes nothing. -/
theorem Refines.handlePacket_ping (hm : Refines m e) (hb : m.findBinding peer = some b)
    (hping : packet.header.msgType = .kC2SPing) (env : Environment) :
    m.handlePacket env packet peer = (pong b env packet peer, m) := by
  have hres : m.resolveAndRefreshPeer peer packet = (some b, m) := by
    rw [resolveAndRefreshPeer, hb]
    exact congrArg (Prod.mk _) (hm.setPeer_of_bound hb)
  have hall : m.handlePacket env packet peer = m.handlePing env packet peer := by
    unfold handlePacket
    rw [hping]
    rfl
  rw [hall, handlePing, hres, sendPong, hb]
  rfl

/-! ## What changes is the sender's own -/

/-- From a bound peer, every other player stays as it is, or the packet is a shot that wounds one. -/
theorem Refines.others (hm : Refines m e) (hb : m.findBinding peer = some b) (env : Environment)
    (packet : GamePacket) :
    (∀ b', b' ≠ b → (m.handlePacket env packet peer).2.record b' = m.record b')
      ∨ packet.header.msgType = .kC2SFire ∧ ∃ victim, victim ≠ b
        ∧ GameRoom.Wounded (m.record victim) ((m.handlePacket env packet peer).2.record victim)
        ∧ ∀ b', b' ≠ b → b' ≠ victim →
          (m.handlePacket env packet peer).2.record b' = m.record b' := by
  have hres : m.resolveAndRefreshPeer peer packet = (some b, m) := by
    rw [resolveAndRefreshPeer, hb]
    exact congrArg (Prod.mk _) (hm.setPeer_of_bound hb)
  have hsender : m.sender peer packet = some b := by rw [sender, hb]
  have hout := handlePacket_outcome hm env packet peer
  generalize m.handlePacket env packet peer = out at hout ⊢
  cases hout with
  | @join sent desired htype hsent =>
      -- the peer has joined before
      have hjoin : (m.join peer desired).2 = m := by
        rw [findBinding] at hb
        rw [join, hb]
      left
      intro b' _
      show (m.join peer desired).2.record b' = _
      rw [hjoin]
  | @drop sent m' hm' hsent hrespawn =>
      have hsame : m' = m := by
        rw [hres] at hm'
        exact hm'.elim id id
      left
      intro b' _
      show m'.record b' = _
      rw [hsame]
  | @act b₀ room room' evs hs hroom hdeed =>
      obtain rfl : b = b₀ := Option.some.inj (hsender.symm.trans hs)
      simp only [hres] at hroom ⊢
      obtain hsame | ⟨hfire, t, hne, hwound, hsame⟩ := hdeed.others
      · left
        rintro ⟨r, q⟩ hq
        refine record_act_of_same hroom fun hr => hsame q fun heq => hq ?_
        rw [heq, show r = b.roomId from hr]
      · right
        refine ⟨hfire, ⟨b.roomId, t⟩, ?_, ?_, ?_⟩
        · intro heq
          exact hne (congrArg PlayerBinding.playerId heq)
        · rw [record_act hroom, if_pos rfl, record_of_findRoom hroom]
          exact hwound
        · rintro ⟨r, q⟩ hq hqt
          refine record_act_of_same hroom fun hr => ?_
          have hr : r = b.roomId := hr
          exact hsame q (fun heq => hq (by rw [hr, heq])) fun heq => hqt (by rw [hr, heq])

/-! ## The contract -/

/-- **A bound peer acts only as itself.** In every reachable state, two packets from a bound peer that
agree in type and payload lead to the same state and the same datagrams, but for the sequence number
and the tick that a pong gives back.  They change the player that the peer is bound to, and of the
others at most one, by a shot, in its life. -/
theorem bound_acts_as_itself (tickIntervalMs : UInt32) (calls : List Call) (env : Environment)
    (peer : SockAddrIn) (b : PlayerBinding) (packet packet' : GamePacket)
    (hb : (reached tickIntervalMs calls : GameRoomManager F).findBinding peer = some b)
    (htype : packet.header.msgType = packet'.header.msgType)
    (hpayload : packet.payload = packet'.payload) :
    let m : GameRoomManager F := reached tickIntervalMs calls
    let handled := m.handlePacket env packet peer
    let handled' := m.handlePacket env packet' peer
    handled.2 = handled'.2
      ∧ (packet.header.msgType ≠ .kC2SPing → handled.1 = handled'.1)
      ∧ (packet.header.msgType = .kC2SPing →
          handled.1 = pong b env packet peer ∧ handled'.1 = pong b env packet' peer)
      ∧ ((∀ b', b' ≠ b → handled.2.record b' = m.record b')
        ∨ packet.header.msgType = .kC2SFire ∧ ∃ victim, victim ≠ b
          ∧ GameRoom.Wounded (m.record victim) (handled.2.record victim)
          ∧ ∀ b', b' ≠ b → b' ≠ victim → handled.2.record b' = m.record b') := by
  intro m handled handled'
  obtain ⟨e, -, hm⟩ : ∃ e, Registry.Steps ⊥ e ∧ Refines m e := reached_refines tickIntervalMs calls
  have hothers := hm.others hb env packet
  by_cases hping : packet.header.msgType = .kC2SPing
  · have hrun : handled = (pong b env packet peer, m) := hm.handlePacket_ping hb hping env
    have hrun' : handled' = (pong b env packet' peer, m) :=
      hm.handlePacket_ping hb (htype ▸ hping) env
    refine ⟨?_, fun hno => absurd hping hno, fun _ => ⟨?_, ?_⟩, hothers⟩
    · rw [hrun, hrun']
    · rw [hrun]
    · rw [hrun']
  · have hsame : handled = handled' := handlePacket_congr hb htype hpayload hping env
    refine ⟨?_, fun _ => ?_, fun hyes => absurd hyes hping, hothers⟩
    · rw [hsame]
    · rw [hsame]

/-- The step of `stepInput`, with another player's id in the header. -/
def forgedInput : GamePacket where
  header := { msgType := .kC2SInput, roomId := 1, playerId := 2, seq := 7, tick := 9, flags := 1 }
  payload := stepInput.payload

/-- Two members; the first steps in its own name, or in the name of the second.  The first moves. -/
theorem bound_acts_as_itself_sample :
    let m : GameRoomManager Binary32 := reached 33 [.join member 1, .join stranger 1]
    let handled := m.handlePacket ⟨.entries _, 0, 0⟩ stepInput member
    let handled' := m.handlePacket ⟨.entries _, 0, 0⟩ forgedInput member
    handled = handled'
      ∧ (handled'.2.record ⟨1, 1⟩).map GamePlayer.moveX = some 127
      ∧ ∃ player, m.record ⟨1, 2⟩ = some player ∧ handled'.2.record ⟨1, 2⟩ = some player := by
  intro m handled handled'
  have hb : m.findBinding member = some ⟨1, 1⟩ := by decide +kernel
  have hthere : (m.record ⟨1, 2⟩).isSome = true := by decide +kernel
  obtain ⟨player, hplayer⟩ := Option.isSome_iff_exists.mp hthere
  obtain ⟨hstate, hsent, -, -⟩ := bound_acts_as_itself 33 [.join member 1, .join stranger 1]
    ⟨.entries _, 0, 0⟩ member ⟨1, 1⟩ stepInput forgedInput hb rfl rfl
  obtain ⟨-, -, -, hothers⟩ := bound_acts_as_itself 33 [.join member 1, .join stranger 1]
    ⟨.entries _, 0, 0⟩ member ⟨1, 1⟩ forgedInput stepInput hb rfl rfl
  have hkept : handled'.2.record ⟨1, 2⟩ = m.record ⟨1, 2⟩ := by
    obtain hsame | ⟨hfire, -⟩ := hothers
    · exact hsame ⟨1, 2⟩ (by decide)
    · cases hfire
  refine ⟨Prod.ext (hsent (by decide)) hstate, by decide +kernel, player, hplayer, ?_⟩
  rw [hkept, hplayer]

end GameRoomManager

end LightNet.Game
