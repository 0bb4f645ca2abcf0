/-
# LightNet.Game.Applied — every input counts once, in order, or not at all.

The room takes an input over only if its number is above the last one.  Over a whole run the inputs that
have been taken over therefore stand in the order of their numbers, and the controls of a player who has not
died are those of the last of them.  The twenty inputs of a client have the numbers one to twenty, and a
client fires no shot: however its datagrams are lost, repeated and reordered, and however often the client
is started again, the inputs that count are some of the twenty, in their order.
-/
import LightNet.Game.Inputs
import LightNet.Game.Network
import LightNet.Game.Operations
import Mathlib.Data.List.Sort

namespace LightNet.Game

open LightNet.Foundation LightNet.Core LightNet.Net

variable {F : Type}

/-- The controls of a player that has reported nothing. -/
def Controls.none : Controls := ⟨0, 0, 0, 0, 0, 0, false⟩

namespace GameRoom

instance (room : GameRoom F) (player : GamePlayer F) (input : GameInputPayload F) :
    Decidable (room.Accepts player input) :=
  inferInstanceAs (Decidable (_ ∧ _ ∧ _))

/-- The input of player `q` that the room takes over in an operation. -/
def takes (room : GameRoom F) (q : UInt32) : Op F → Option (GameInputPayload F)
  | .applyInput p input =>
      if p = q then
        (room.findPlayer q).bind fun player => if room.Accepts player input then some input else none
      else none
  | _ => none

theorem takes_eq_some {room : GameRoom F} {q : UInt32} {op : Op F} {input : GameInputPayload F} :
    room.takes q op = some input ↔ op = .applyInput q input
      ∧ ∃ player, room.findPlayer q = some player ∧ room.Accepts player input := by
  constructor
  · intro h
    unfold takes at h
    split at h
    · split at h
      · rename_i hp
        obtain ⟨player, hplayer, hinput⟩ := Option.bind_eq_some_iff.mp h
        split at hinput
        · rename_i haccepts
          obtain rfl := Option.some.inj hinput
          exact ⟨by rw [hp], player, hplayer, haccepts⟩
        · cases hinput
      · cases h
    · cases h
  · rintro ⟨rfl, player, hplayer, haccepts⟩
    simp only [takes, if_true, hplayer, Option.bind_some, if_pos haccepts]

/-- The operation is no shot, and does not remove player `q`. -/
def Op.Spares (q : UInt32) (op : Op F) : Prop := op ≠ .removePlayer q ∧ ¬op.IsShot

/-! ## What a player has heard -/

/-- The inputs that have been taken over are in order, and the player, who is alive, has the controls of
the last one. -/
structure Heard (room : GameRoom F) (q : UInt32) (inputs : List (GameInputPayload F)) : Prop where
  increasing : inputs.Pairwise fun a b => a.inputSeq < b.inputSeq
  latest : ∀ player, room.findPlayer q = some player → player.alive = true
    ∧ player.controls = ((inputs.getLast?).map fun input => input.controls).getD Controls.none
  nobody : room.findPlayer q = none → inputs = []

variable {room : GameRoom F} {q : UInt32} {inputs : List (GameInputPayload F)}

/-- The number of a player is that of the last input that has been taken over. -/
theorem Heard.lt_of_accepts (h : room.Heard q inputs) {player : GamePlayer F}
    (hplayer : room.findPlayer q = some player) {input : GameInputPayload F}
    (haccepts : room.Accepts player input) : ∀ a ∈ inputs, a.inputSeq < input.inputSeq := by
  intro a ha
  have hlatest := congrArg Controls.lastInputSeq (h.latest player hplayer).2
  rcases List.eq_nil_or_concat inputs with rfl | ⟨front, last, rfl⟩
  · exact absurd ha List.not_mem_nil
  · rw [List.concat_eq_append] at ha hlatest
    rw [List.getLast?_concat] at hlatest
    have hlast : last.inputSeq < input.inputSeq := by
      have hseq : player.lastInputSeq = last.inputSeq := hlatest
      rw [← hseq]
      exact haccepts.2.2
    have hinc := h.increasing
    rw [List.concat_eq_append, List.pairwise_append] at hinc
    rcases List.mem_append.mp ha with hfront | hsame
    · exact UInt32.lt_trans (hinc.2.2 a hfront last List.mem_cons_self) hlast
    · rw [List.mem_singleton.mp hsame]
      exact hlast

variable [FloatArith F]

/-! ## The inputs of a run -/

/-- The inputs of player `q` that the room takes over in some operations. -/
def taken (room : GameRoom F) (q : UInt32) (ops : List (Op F)) : List (GameInputPayload F) :=
  (outputs perform (fun room op => room.takes q op) room ops).flatMap Option.toList

/-- **One operation.** -/
theorem Heard.perform (h : room.Heard q inputs) (hfiled : room.Filed) {op : Op F}
    (hspares : op.Spares q) :
    (room.perform op).Heard q (inputs ++ (room.takes q op).toList) := by
  cases htakes : room.takes q op with
  | some input =>
      obtain ⟨rfl, player, hplayer, haccepts⟩ := takes_eq_some.mp htakes
      have hperform : room.perform (.applyInput q input)
          = room.modifyPlayer q fun player => player.onInput input :=
        applyInput_of_accepts hplayer haccepts
      have hfound : (room.perform (.applyInput q input)).findPlayer q
          = some (player.onInput input) := by
        rw [hperform, findPlayer_modifyPlayer, if_pos rfl, hplayer, Option.map_some]
      refine ⟨?_, ?_, ?_⟩
      · refine List.pairwise_append.mpr ⟨h.increasing, List.pairwise_singleton _ _, ?_⟩
        intro a ha b hb
        rw [List.mem_singleton.mp hb]
        exact h.lt_of_accepts hplayer haccepts a ha
      · intro player' hplayer'
        obtain rfl := Option.some.inj (hfound.symm.trans hplayer')
        rw [Option.toList_some, List.getLast?_concat, GamePlayer.controls_onInput]
        exact ⟨(congrArg Vitals.alive (GamePlayer.vitals_onInput _ _)).trans haccepts.1, rfl⟩
      · intro hnone
        rw [hfound] at hnone
        cases hnone
  | none =>
      have hcourse := perform_course hfiled op q
      rw [Option.toList_none, List.append_nil]
      -- whatever else happens to a player who is not shot leaves its controls alone
      have hkept : ∀ player player', room.findPlayer q = some player →
          (room.perform op).findPlayer q = some player' → player'.alive = player.alive →
          player'.controls = player.controls → (room.perform op).Heard q inputs := by
        intro player player' hplayer hplayer' halive hcontrols
        refine ⟨h.increasing, fun found hfound => ?_, fun hnone => ?_⟩
        · obtain rfl := Option.some.inj (hplayer'.symm.trans hfound)
          rw [halive, hcontrols]
          exact h.latest player hplayer
        · rw [hplayer'] at hnone
          cases hnone
      generalize hbefore : room.findPlayer q = before at hcourse
      generalize hafter : (room.perform op).findPlayer q = after at hcourse
      cases hcourse with
      | keeps hidle =>
          refine ⟨h.increasing, fun player hplayer => ?_, fun hnone => ?_⟩
          · exact h.latest player (hbefore.trans (hafter.symm.trans hplayer))
          · exact h.nobody (hbefore.trans (hafter.symm.trans hnone))
      | joins hq =>
          obtain rfl := h.nobody hbefore
          refine ⟨List.Pairwise.nil, fun player hplayer => ?_, fun _ => rfl⟩
          obtain rfl := Option.some.inj (hafter.symm.trans hplayer)
          exact ⟨rfl, rfl⟩
      | leaves => exact absurd rfl hspares.1
      | @reports player input haccepts =>
          have hsome := takes_eq_some.mpr ⟨rfl, player, hbefore, haccepts⟩
          rw [hsome] at htakes
          cases htakes
      | hurts hshot | dies hshot | scores hshot => exact absurd hshot hspares.2
      | arms => exact hkept _ _ hbefore hafter rfl rfl
      | renames => exact hkept _ _ hbefore hafter rfl rfl
      | @revives player hgranted =>
          -- only the dead come back
          exact absurd (.inl (h.latest player hbefore).1) hgranted
      | ticks =>
          exact hkept _ _ hbefore hafter (GamePlayer.alive_tick _ _ _) (GamePlayer.controls_tick _ _ _)

/-- **A run of operations** in which nobody shoots and the player is not removed. -/
theorem Heard.run (h : room.Heard q inputs) (hfiled : room.Filed) {ops : List (Op F)}
    (hspares : ∀ op ∈ ops, op.Spares q) :
    (run GameRoom.perform room ops).Heard q (inputs ++ room.taken q ops) := by
  induction ops generalizing room inputs with
  | nil =>
      rw [taken, outputs, List.flatMap_nil, List.append_nil]
      exact h
  | cons op ops ih =>
      rw [List.forall_mem_cons] at hspares
      have hrest := ih (h.perform hfiled hspares.1) (hfiled.perform op) hspares.2
      rw [List.append_assoc] at hrest
      exact hrest

theorem taken_append (room : GameRoom F) (q : UInt32) (ops ops' : List (Op F)) :
    room.taken q (ops ++ ops') = room.taken q ops ++ (run GameRoom.perform room ops).taken q ops' := by
  rw [taken, outputs_append, List.flatMap_append]
  rfl

theorem mem_of_mem_taken {room : GameRoom F} {q : UInt32} {ops : List (Op F)}
    {input : GameInputPayload F} (h : input ∈ room.taken q ops) : .applyInput q input ∈ ops := by
  induction ops generalizing room with
  | nil => exact absurd h List.not_mem_nil
  | cons op ops ih =>
      rw [taken, outputs, List.flatMap_cons] at h
      rcases List.mem_append.mp h with hfirst | hrest
      · rw [← (takes_eq_some.mp (Option.mem_toList.mp hfirst)).1]
        exact List.mem_cons_self
      · exact List.mem_cons_of_mem op (ih hrest)

/-- Inputs with the numbers one to twenty, in order. -/
theorem sublist_of_increasing [FloatBits F] {inputs : List (GameInputPayload F)}
    (hincreasing : inputs.Pairwise fun a b => a.inputSeq < b.inputSeq)
    (hinputs : ∀ input ∈ inputs, ∃ i < 20, input = UdpGameClient.input F i) :
    inputs.Sublist ((List.range 20).map (UdpGameClient.input F)) := by
  -- the turns in which the inputs have been made
  obtain ⟨turns, hturns, rfl⟩ : ∃ turns : List Nat, (∀ i ∈ turns, i < 20)
      ∧ turns.map (UdpGameClient.input F) = inputs := by
    clear hincreasing
    induction inputs with
    | nil => exact ⟨[], fun i hi => absurd hi List.not_mem_nil, rfl⟩
    | cons input inputs ih =>
        obtain ⟨i, hi, rfl⟩ := hinputs input List.mem_cons_self
        obtain ⟨turns, hturns, rfl⟩ := ih fun a ha => hinputs a (List.mem_cons_of_mem _ ha)
        exact ⟨i :: turns, List.forall_mem_cons.mpr ⟨hi, hturns⟩, rfl⟩
  have hnumber : ∀ i < 20, (UdpGameClient.input F i).inputSeq.toNat = i + 1 := by
    intro i hi
    show (UInt32.ofNat (i + 1)).toNat = i + 1
    rw [UInt32.toNat_ofNat', Nat.mod_eq_of_lt (by omega)]
  have hsorted : turns.Pairwise (· < ·) := by
    refine (List.pairwise_map.mp hincreasing).imp_of_mem fun hi hj hlt => ?_
    have hlt := UInt32.lt_iff_toNat_lt.mp hlt
    rw [hnumber _ (hturns _ hi), hnumber _ (hturns _ hj)] at hlt
    omega
  have hsub : turns ⊆ List.range 20 := fun i hi => List.mem_range.mpr (hturns i hi)
  exact (List.sublist_of_subperm_of_pairwise
    (List.subperm_of_subset (hsorted.imp fun h => h.ne) hsub) hsorted List.pairwise_lt_range).map _

end GameRoom

/-! ## The operations of a run -/

namespace GameRoomManager

/-- What the sender of a packet does, somebody does in some room. -/
theorem bySender_eq_some {m : GameRoomManager F} {peer : SockAddrIn} {packet : GamePacket}
    {does : GameRoom F → UInt32 → Option (GameRoom.Op F)} {op : GameRoom.Op F}
    (hop : m.bySender peer packet does = some op) : ∃ room p, does room p = some op := by
  unfold bySender at hop
  split at hop
  · cases hop
  · obtain ⟨room, -, hop⟩ := Option.bind_eq_some_iff.mp hop
    exact ⟨room, _, hop⟩

/-- A join makes nobody leave and reports nothing. -/
theorem enrolls_eq_some {m : GameRoomManager F} {peer : SockAddrIn} {op : GameRoom.Op F}
    (hop : m.enrolls peer = some op) : op = .addPlayer nowhere m.nextPlayerId := by
  unfold enrolls at hop
  split at hop
  · cases hop
  · exact (Option.some.inj hop).symm

variable [FloatArith F]

theorem filed_onlyRoom {m : GameRoomManager F} {e : Bytes ≃. PlayerBinding} (hm : Refines m e) :
    m.onlyRoom.Filed := by
  unfold onlyRoom
  cases hroom : m.findRoom kSingleRoomId with
  | none => exact GameRoom.filed_new _ _
  | some room =>
      intro q player hplayer
      rw [Option.map_some, Option.getD_some, GameRoom.findPlayer_anonymous] at hplayer
      obtain ⟨player, hfound, rfl⟩ := Option.map_eq_some_iff.mp hplayer
      exact hm.filed hroom q player hfound

variable [FloatBits F]

theorem operations_append (m : GameRoomManager F) (calls calls' : List Call) :
    m.operations (calls ++ calls') = m.operations calls ++ (run after m calls).operations calls' := by
  rw [operations, outputs_append, List.flatMap_append]
  rfl

theorem operations_singleton (m : GameRoomManager F) (call : Call) :
    m.operations [call] = (m.operation call).toList := by
  simp only [operations, outputs, List.flatMap_cons, List.flatMap_nil, List.append_nil]

/-- What the packet of a bound sender makes it do. -/
theorem operation_of_bound {m : GameRoomManager F} {e : Bytes ≃. PlayerBinding} (hm : Refines m e)
    {env : Environment} {packet : GamePacket} {peer : SockAddrIn} {b : PlayerBinding}
    (hb : m.findBinding peer = some b) {op : GameRoom.Op F}
    (hop : m.bySender peer packet (fun room p => room.operation env packet p) = some op) :
    ∃ room, m.findRoom b.roomId = some room ∧ room.operation env packet b.playerId = some op := by
  rw [bySender, hm.resolve_of_bound hb] at hop
  exact Option.bind_eq_some_iff.mp hop

/-- A packet makes nobody leave, only a fire packet shoots, and an input of the room is the input of the
packet. -/
theorem operation_eq_some {room : GameRoom F} {env : Environment} {packet : GamePacket} {p : UInt32}
    {op : GameRoom.Op F} (hop : room.operation env packet p = some op) :
    (∀ q, op ≠ .removePlayer q) ∧ (op.IsShot → packet.header.msgType = .kC2SFire)
      ∧ ∀ q input, op = .applyInput q input →
        q = p ∧ packet.header.msgType = .kC2SInput ∧ GameCodec.decodeInput packet = some input := by
  unfold GameRoom.operation at hop
  dsimp only at hop
  split at hop
  · rename_i htype
    obtain ⟨input, hinput, rfl⟩ := Option.map_eq_some_iff.mp hop
    refine ⟨fun q h => (nomatch h), False.elim, fun q input' heq => ?_⟩
    obtain ⟨rfl, rfl⟩ := GameRoom.Op.applyInput.inj heq
    exact ⟨rfl, htype, hinput⟩
  split at hop
  · rename_i htype
    obtain ⟨fire, -, heq⟩ := Option.bind_eq_some_iff.mp hop
    split at heq
    · obtain rfl := Option.some.inj heq
      exact ⟨fun q h => (nomatch h), fun _ => htype, fun q input h => (nomatch h)⟩
    · cases heq
  split at hop
  · obtain ⟨weapon, -, rfl⟩ := Option.map_eq_some_iff.mp hop
    exact ⟨fun q h => (nomatch h), False.elim, fun q input h => (nomatch h)⟩
  split at hop
  · obtain rfl := Option.some.inj hop
    exact ⟨fun q h => (nomatch h), False.elim, fun q input h => (nomatch h)⟩
  split at hop
  · obtain ⟨profile, -, rfl⟩ := Option.map_eq_some_iff.mp hop
    exact ⟨fun q h => (nomatch h), False.elim, fun q input h => (nomatch h)⟩
  · cases hop

end GameRoomManager

/-! ## What the server does on the network -/

/-- The call of the manager that a move leads to, while the server runs. -/
def Move.call : Move → Option GameRoomManager.Call
  | .datagram env data peer => (GameCodec.decode data).map fun packet => .handlePacket env packet peer
  | .tick ord => some (.tickAll ord)
  | .launch _ _ | .resume _ _ _ => none

namespace Arena

open GameRoomManager (kSingleRoomId operations)

variable [FloatArith F] [FloatBits F]

/-- A server that runs goes on running, and its manager sees the datagrams and the ticks. -/
theorem rooms_step {n : Lossy (Arena F) Datagram} (hrunning : n.parties.server.running = true)
    (move : Move) : (step n move).parties.server.running = true
      ∧ (step n move).parties.server.rooms
        = run GameRoomManager.after n.parties.server.rooms move.call.toList := by
  cases move with
  | launch peer desiredRoom => exact ⟨hrunning, rfl⟩
  | resume peer now data => exact ⟨hrunning, rfl⟩
  | datagram env data peer =>
      simp only [step, Lossy.step, react, GameServer.onDatagram, Move.call]
      cases GameCodec.decode data with
      | none => exact ⟨hrunning, rfl⟩
      | some packet => exact ⟨hrunning, rfl⟩
  | tick ord =>
      simp only [step, Lossy.step, react, GameServer.onTick, hrunning, Bool.not_true,
        Bool.false_eq_true, if_false]
      exact ⟨rfl, rfl⟩

/-- The calls that some moves lead to. -/
def calls (moves : List Move) : List GameRoomManager.Call := moves.flatMap fun move => move.call.toList

/-! ## What the packets of clients stand for -/

/-- A move makes the room add a player, tick, or perform what the sender of a packet does. -/
theorem operation_of_move {m : GameRoomManager F} {move : Move} {op : GameRoom.Op F}
    (hop : op ∈ operations m move.call.toList) :
    (∃ p, op = .addPlayer nowhere p) ∨ (∃ ord, op = .tick ord)
      ∨ ∃ env data peer packet, move = .datagram env data peer ∧ GameCodec.decode data = some packet
        ∧ m.bySender peer packet (fun room p => room.operation env packet p) = some op := by
  obtain ⟨call, hcall, hop⟩ : ∃ call, move.call = some call ∧ m.operation call = some op := by
    cases hcall : move.call with
    | none =>
        rw [hcall] at hop
        exact absurd hop List.not_mem_nil
    | some call =>
        rw [hcall, Option.toList_some, GameRoomManager.operations_singleton] at hop
        exact ⟨call, rfl, Option.mem_toList.mp hop⟩
  cases move with
  | launch peer desiredRoom => cases hcall
  | resume peer now data => cases hcall
  | tick ord =>
      obtain rfl := Option.some.inj hcall
      obtain ⟨room, -, rfl⟩ := Option.map_eq_some_iff.mp hop
      exact .inr (.inl ⟨ord, rfl⟩)
  | datagram env data peer =>
      obtain ⟨packet, hpacket, rfl⟩ := Option.map_eq_some_iff.mp hcall
      rw [GameRoomManager.operation] at hop
      split at hop
      · obtain ⟨req, -, hjoin⟩ := Option.bind_eq_some_iff.mp hop
        exact .inl ⟨_, GameRoomManager.enrolls_eq_some hjoin⟩
      · exact .inr (.inr ⟨env, data, peer, packet, rfl, hpacket, hop⟩)

/-- A client sends joins, inputs and pings. -/
theorem type_of_says {b : Option PlayerBinding} {data : Bytes} (hsaid : UdpGameClient.Says F b data)
    {packet : GamePacket} (hpacket : GameCodec.decode data = some packet) :
    packet.header.msgType = .kC2SJoin ∨ packet.header.msgType = .kC2SInput
      ∨ packet.header.msgType = .kC2SPing := by
  cases hsaid with
  | join desiredRoom =>
      obtain ⟨packet', hpacket', hjoin⟩ := UdpGameClient.decode_joinPacket desiredRoom
      obtain rfl := Option.some.inj (hpacket.symm.trans hpacket')
      exact .inl hjoin
  | @input ack hack i hi =>
      obtain ⟨packet', hpacket', hinput, -⟩ := @UdpGameClient.decode_inputPacket F _ _ ack i
      obtain rfl := Option.some.inj (hpacket.symm.trans hpacket')
      exact .inr (.inl hinput)
  | @ping ack hack now =>
      obtain ⟨packet', hpacket', hping⟩ := UdpGameClient.decode_pingPacket ack now
      obtain rfl := Option.some.inj (hpacket.symm.trans hpacket')
      exact .inr (.inr hping)

/-- Nobody leaves, and nobody shoots. -/
theorem spares_of_move {n : Lossy (Arena F) Datagram} (hn : Lossy.Sound Agrees Honest n) {move : Move}
    (hmove : Enabled n move) (q : UInt32) :
    ∀ op ∈ operations n.parties.server.rooms move.call.toList, op.Spares q := by
  intro op hmem
  obtain ⟨p, rfl⟩ | ⟨ord, rfl⟩ | ⟨env, data, peer, packet, rfl, hpacket, hop⟩ := operation_of_move hmem
  · exact ⟨fun h => (nomatch h), False.elim⟩
  · exact ⟨fun h => (nomatch h), False.elim⟩
  · obtain ⟨room, p, hop⟩ := GameRoomManager.bySender_eq_some hop
    obtain ⟨hstays, hshot, -⟩ := GameRoomManager.operation_eq_some hop
    refine ⟨hstays q, fun hop => ?_⟩
    have hfire := hshot hop
    have hsaid : UdpGameClient.Says F (n.parties.server.rooms.findBinding peer) data :=
      hn.2 (.up peer data) (hmove _ rfl)
    rcases type_of_says hsaid hpacket with htype | htype | htype <;>
      exact absurd (htype.symm.trans hfire) (by decide)

/-- An input that the room performs is one that the client of that player has sent. -/
theorem input_of_move {n : Lossy (Arena F) Datagram} (hn : Lossy.Sound Agrees Honest n)
    (hone : n.parties.server.rooms.OneRoom) {move : Move} (hmove : Enabled n move) {p : UInt32}
    {input : GameInputPayload F}
    (hop : .applyInput p input ∈ operations n.parties.server.rooms move.call.toList) :
    ∃ peer ack i, n.parties.server.rooms.findBinding peer = some ⟨kSingleRoomId, p⟩ ∧ i < 20
      ∧ .up peer (UdpGameClient.inputPacket F ack i) ∈ n.sent ∧ input = UdpGameClient.input F i := by
  obtain ⟨q, heq⟩ | ⟨ord, heq⟩ | ⟨env, data, peer, packet, rfl, hpacket, hby⟩ := operation_of_move hop
  · cases heq
  · cases heq
  · have hsent : .up peer data ∈ n.sent := hmove _ rfl
    have hsaid : UdpGameClient.Says F (n.parties.server.rooms.findBinding peer) data := hn.2 _ hsent
    obtain ⟨e, hm⟩ := hn.1.refines
    have htype : packet.header.msgType = .kC2SInput := by
      obtain ⟨room, q, hdoes⟩ := GameRoomManager.bySender_eq_some hby
      exact ((GameRoomManager.operation_eq_some hdoes).2.2 p input rfl).2.1
    cases hsaid with
    | join desiredRoom =>
        obtain ⟨packet', hpacket', hjoin⟩ := UdpGameClient.decode_joinPacket desiredRoom
        obtain rfl := Option.some.inj (hpacket.symm.trans hpacket')
        exact absurd (hjoin.symm.trans htype) (by decide)
    | @ping ack hack now =>
        obtain ⟨packet', hpacket', hping⟩ := UdpGameClient.decode_pingPacket ack now
        obtain rfl := Option.some.inj (hpacket.symm.trans hpacket')
        exact absurd (hping.symm.trans htype) (by decide)
    | @input ack hack i hi =>
        obtain ⟨room, hroom, hdoes⟩ := GameRoomManager.operation_of_bound hm hack hby
        obtain ⟨rfl, -, hdec⟩ := (GameRoomManager.operation_eq_some hdoes).2.2 p input rfl
        refine ⟨peer, ack, i, ?_, hi, hsent, ?_⟩
        · rw [hack, ← hone _ room hroom]
        · obtain ⟨packet', hpacket', -, hdec'⟩ := @UdpGameClient.decode_inputPacket F _ _ ack i
          obtain rfl := Option.some.inj (hpacket.symm.trans hpacket')
          exact Option.some.inj (hdec.symm.trans hdec')

/-! ## Every input at most once -/

/-- What is known of the inputs that have been taken over for player `p`. -/
structure Counted (n : Lossy (Arena F) Datagram) (p : UInt32) (inputs : List (GameInputPayload F)) :
    Prop where
  heard : n.parties.server.rooms.onlyRoom.Heard p inputs
  sent : ∀ input ∈ inputs, ∃ peer ack i,
    n.parties.server.rooms.findBinding peer = some ⟨kSingleRoomId, p⟩ ∧ i < 20
      ∧ .up peer (UdpGameClient.inputPacket F ack i) ∈ n.sent ∧ input = UdpGameClient.input F i

/-- One move. -/
theorem Counted.step {n : Lossy (Arena F) Datagram} {p : UInt32} {inputs : List (GameInputPayload F)}
    (h : Counted n p inputs) (hn : Lossy.Sound Agrees Honest n)
    (hone : n.parties.server.rooms.OneRoom) (hrunning : n.parties.server.running = true) {move : Move}
    (hmove : Enabled n move) :
    Counted (Arena.step n move) p (inputs ++ n.parties.server.rooms.onlyRoom.taken p
      (operations n.parties.server.rooms move.call.toList)) := by
  obtain ⟨e, hm⟩ := hn.1.refines
  obtain ⟨-, hkeep⟩ := sound_step hn hmove
  have hsent : n.sent <+: (Arena.step n move).sent := List.prefix_append _ _
  refine ⟨?_, fun input hinput => ?_⟩
  · rw [(rooms_step hrunning move).2, GameRoomManager.onlyRoom_run hm hone]
    exact h.heard.run (GameRoomManager.filed_onlyRoom hm) (spares_of_move hn hmove p)
  · have hsaid : ∃ peer ack i, n.parties.server.rooms.findBinding peer = some ⟨kSingleRoomId, p⟩
        ∧ i < 20 ∧ .up peer (UdpGameClient.inputPacket F ack i) ∈ n.sent
        ∧ input = UdpGameClient.input F i := by
      rcases List.mem_append.mp hinput with hold | hnew
      · exact h.sent input hold
      · exact input_of_move hn hone hmove (GameRoom.mem_of_mem_taken hnew)
    obtain ⟨peer, ack, i, hb, hi, hup, heq⟩ := hsaid
    exact ⟨peer, ack, i, hkeep peer _ hb, hi, hsent.subset hup, heq⟩

/-- A run. -/
theorem Counted.run {n : Lossy (Arena F) Datagram} {p : UInt32} {inputs : List (GameInputPayload F)}
    (h : Counted n p inputs) (hn : Lossy.Sound Agrees Honest n)
    (hone : n.parties.server.rooms.OneRoom) (hrunning : n.parties.server.running = true)
    {moves : List Move} (hok : Admissible Arena.step Enabled n moves) :
    Counted (run Arena.step n moves) p (inputs ++ n.parties.server.rooms.onlyRoom.taken p
      (operations n.parties.server.rooms (calls moves))) := by
  induction moves generalizing n inputs with
  | nil =>
      simp only [calls, operations, outputs, GameRoom.taken, List.flatMap_nil, List.append_nil]
      exact h
  | cons move moves ih =>
      obtain ⟨e, hm⟩ := hn.1.refines
      obtain ⟨hrunning', hrooms⟩ := rooms_step hrunning move
      obtain ⟨hn', -⟩ := sound_step hn hok.1
      have hone' : (Arena.step n move).parties.server.rooms.OneRoom := by
        rw [hrooms]
        cases move.call with
        | none => exact hone
        | some call => exact hone.after hm call
      have hrest := ih (h.step hn hone hrunning hok.1) hn' hone' hrunning' hok.2
      rw [calls, List.flatMap_cons, GameRoomManager.operations_append, GameRoom.taken_append,
        ← GameRoomManager.onlyRoom_run hm hone, ← hrooms, ← List.append_assoc]
      exact hrest

/-! ## The contract -/

/-- **Every input counts at most once, in order.** Whatever the network does to the datagrams, and however
often clients are started again: the inputs that the server takes over for a player have been sent, by a
client on the address that is bound to the player; they are some of the twenty inputs that a client makes,
in the order in which it makes them; and the controls of the player are those of the last of them. -/
theorem inputs_at_most_once (tickIntervalMs : UInt32) (wheel : TimerWheel) (clock : Nat)
    (moves : List Move)
    (hok : Admissible step Enabled (initial tickIntervalMs wheel clock : Lossy (Arena F) Datagram) moves)
    (p : UInt32) :
    let n := run step (initial tickIntervalMs wheel clock : Lossy (Arena F) Datagram) moves
    let inputs := (GameRoom.new kSingleRoomId tickIntervalMs : GameRoom F).taken p
      (operations (.new tickIntervalMs) (calls moves))
    inputs.Sublist ((List.range 20).map (UdpGameClient.input F))
      ∧ (∀ input ∈ inputs, ∃ peer ack i,
          n.parties.server.rooms.findBinding peer = some ⟨kSingleRoomId, p⟩
            ∧ .up peer (UdpGameClient.inputPacket F ack i) ∈ n.sent ∧ input = UdpGameClient.input F i)
      ∧ ∀ player, n.parties.server.rooms.record ⟨kSingleRoomId, p⟩ = some player →
          player.controls
            = ((inputs.getLast?).map fun input => input.controls).getD Controls.none := by
  intro n inputs
  have hstart : Counted (initial tickIntervalMs wheel clock : Lossy (Arena F) Datagram) p [] :=
    ⟨⟨List.Pairwise.nil, fun _ h => (nomatch h), fun _ => rfl⟩, fun _ h => absurd h List.not_mem_nil⟩
  have h : Counted n p inputs := hstart.run (sound_initial tickIntervalMs wheel clock)
    (GameRoomManager.oneRoom_new tickIntervalMs) rfl hok
  refine ⟨GameRoom.sublist_of_increasing h.heard.increasing fun input hinput => ?_,
    fun input hinput => ?_, fun player hplayer => ?_⟩
  · obtain ⟨-, -, i, -, hi, -, heq⟩ := h.sent input hinput
    exact ⟨i, hi, heq⟩
  · obtain ⟨peer, ack, i, hb, -, hup, heq⟩ := h.sent input hinput
    exact ⟨peer, ack, i, hb, hup, heq⟩
  · obtain ⟨room, hroom, hfound⟩ := GameRoomManager.record_eq_some.mp hplayer
    refine (h.heard.latest player.anonymous ?_).2
    rw [GameRoomManager.onlyRoom_of_findRoom hroom, GameRoom.findPlayer_anonymous]
    exact congrArg (Option.map GamePlayer.anonymous) hfound

/-- The first input of the client that has joined. -/
def firstInput : Move :=
  .datagram ⟨.entries _, 0, 0⟩
    (UdpGameClient.inputPacket Binary32
      { roomId := 1, playerId := 1, serverTick := 0, tickIntervalMs := 33 } 0) home

/-- It arrives twice. -/
theorem inputs_at_most_once_sample :
    ((GameRoom.new kSingleRoomId 33 : GameRoom Binary32).taken 1
        (operations (.new 33) (calls (joiningMoves ++ [firstInput, firstInput])))).Sublist
      ((List.range 20).map (UdpGameClient.input Binary32)) := by
  have hjoined : Admissible step Enabled
      (initial 33 (.init 0) 0 : Lossy (Arena Binary32) Datagram) joiningMoves := by decide +kernel
  have hsent : .up home (UdpGameClient.inputPacket Binary32
      { roomId := 1, playerId := 1, serverTick := 0, tickIntervalMs := 33 } 0)
      ∈ (run step (initial 33 (.init 0) 0 : Lossy (Arena Binary32) Datagram) joiningMoves).sent := by
    -- the client has been told what it is, and answers with its first input
    have hack : (UdpGameClient.recvPacket (some firstAck)).bind UdpGameClient.joinAck
        = some { roomId := 1, playerId := 1, serverTick := 0, tickIntervalMs := 33 } := by
      decide +kernel
    have hclient : (run step (initial 33 (.init 0) 0 : Lossy (Arena Binary32) Datagram)
        (joiningMoves.take 3)).parties.clients home = .joining := by decide +kernel
    have hsplit : joiningMoves = joiningMoves.take 3 ++ [.resume home 0 (some firstAck)] := rfl
    rw [hsplit, run_append, run_cons, run_nil]
    generalize run step (initial 33 (.init 0) 0 : Lossy (Arena Binary32) Datagram)
      (joiningMoves.take 3) = n at hclient ⊢
    refine List.mem_append_right _ (List.mem_map_of_mem ?_)
    rw [hclient]
    simp only [UdpGameClient.resume, hack]
    exact List.mem_cons_self
  have henabled : ∀ n : Lossy (Arena Binary32) Datagram,
      (run step (initial 33 (.init 0) 0 : Lossy (Arena Binary32) Datagram) joiningMoves).sent <+: n.sent →
        Enabled n firstInput := by
    intro n hn d hd
    obtain rfl := Option.some.inj hd
    exact hn.subset hsent
  have hok : Admissible step Enabled (initial 33 (.init 0) 0 : Lossy (Arena Binary32) Datagram)
      (joiningMoves ++ [firstInput, firstInput]) :=
    admissible_append.mpr ⟨hjoined, henabled _ (List.prefix_refl _),
      henabled _ (List.prefix_append _ _), trivial⟩
  exact (inputs_at_most_once 33 (.init 0) 0 _ hok 1).1

end Arena

end LightNet.Game
