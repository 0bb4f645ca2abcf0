/-
# LightNet.Game.Network — many clients, one server, and a network that loses, repeats and reorders.

Each client of `examples/udp_game_client.cpp` has an address of its own; the server is that of
`game/game_server.cpp`.  A datagram that has been sent may arrive at any time, any number of times or
never.  What holds all the same is that a client takes itself for the player that its address is bound
to: a binding, once made, stays, and everything that either side says is said under it.
-/
import LightNet.Foundation.Lossy
import LightNet.Game.Client
import LightNet.Game.Server

namespace LightNet.Game

open LightNet.Foundation LightNet.Core LightNet.Net

variable {F : Type}

/-! ## Bindings stay -/

namespace GameRoomManager

variable [FloatArith F]

/-- A join leaves every binding as it is. -/
theorem findBinding_join_of_bound {m : GameRoomManager F} {peer peer' : SockAddrIn} {b : PlayerBinding}
    (hb : m.findBinding peer' = some b) (desired : UInt32) :
    (m.join peer desired).2.findBinding peer' = some b := by
  obtain ⟨_, -, hjoin⟩ | ⟨hq, -⟩ | ⟨_, hfree, -, -, -, -, hidx⟩ := m.join_cases peer desired
  · rw [hjoin]
    exact hb
  · rw [findBinding, hq.peerIndex]
    exact hb
  · have hne : peerKey peer' ≠ peerKey peer := by
      intro hkey
      rw [findBinding, hkey] at hb
      rw [findBinding, hb] at hfree
      cases hfree
    rw [findBinding, hidx, if_neg hne]
    exact hb

variable [FloatBits F]

/-- **Bindings stay**, as long as whoever sends joins or is bound. -/
theorem Refines.findBinding_handlePacket {m : GameRoomManager F} {e : Bytes ≃. PlayerBinding}
    (hm : Refines m e) {packet : GamePacket} {peer : SockAddrIn} (hknown : Known m packet peer)
    (env : Environment) {peer' : SockAddrIn} {b' : PlayerBinding} (hb' : m.findBinding peer' = some b') :
    (m.handlePacket env packet peer).2.findBinding peer' = some b' := by
  by_cases hjoin : packet.header.msgType = .kC2SJoin
  · have hhandle : m.handlePacket env packet peer = m.handleJoin packet peer := by
      unfold handlePacket
      exact if_pos hjoin
    rw [hhandle]
    unfold handleJoin
    cases GameCodec.decodeJoin packet with
    | none => exact hb'
    | some req =>
        have hkept : (m.join peer req.desiredRoomId).2.findBinding peer' = some b' :=
          findBinding_join_of_bound hb' req.desiredRoomId
        dsimp only
        split <;> exact hkept
  · obtain ⟨b, hb⟩ := hknown.resolve_left hjoin
    have hres : (m.resolveAndRefreshPeer peer packet).2 = m :=
      congrArg Prod.snd (hm.resolve_of_bound hb packet)
    have hout := handlePacket_outcome hm env packet peer
    generalize m.handlePacket env packet peer = out at hout ⊢
    cases hout with
    | join desired htype hsent => exact absurd htype hjoin
    | drop hm' hsent hsender =>
        rcases hm' with heq | heq
        · exact heq ▸ hb'
        · exact (heq.trans hres) ▸ hb'
    | act hsender hroom hdeed =>
        rw [hres]
        exact hb'

end GameRoomManager

/-! ## The parties -/

/-- The server, and the client on each address. -/
structure Arena (F : Type) where
  server : GameServer F
  clients : SockAddrIn → UdpGameClient := fun _ => .idle

/-- A datagram on its way. -/
inductive Datagram
  | up (peer : SockAddrIn) (data : Bytes)
  | down (d : SendTo)
  deriving DecidableEq

/-- What happens next: a client is started, or `recv_packet` returns in one, with what has come or with
nothing; the server receives a datagram, or its timer fires. -/
inductive Move
  | launch (peer : SockAddrIn) (desiredRoom : UInt32)
  | resume (peer : SockAddrIn) (now : UInt64) (data : Option Bytes)
  | datagram (env : Environment) (data : Bytes) (peer : SockAddrIn)
  | tick (ord : IterOrder UInt32)

/-- The datagram that arrives in a move. -/
def Move.delivers : Move → Option Datagram
  | .launch _ _ | .tick _ => none
  | .resume peer _ data => data.map fun data => .down ⟨data, peer⟩
  | .datagram _ data peer => some (.up peer data)

namespace Arena

/-- A server that has been started, and no clients yet. -/
def start (tickIntervalMs : UInt32) (wheel : TimerWheel) (clock : Nat) : Arena F where
  server := ((GameServer.new tickIntervalMs).start wheel clock).1

/-- The client on an address goes on. -/
def answer (a : Arena F) (peer : SockAddrIn) (next : List Bytes × UdpGameClient) :
    List Datagram × Arena F :=
  (next.1.map (.up peer), { a with clients := Function.update a.clients peer next.2 })

/-- The server goes on. -/
def serve (a : Arena F) (next : List SendTo × GameServer F) : List Datagram × Arena F :=
  (next.1.map .down, { a with server := next.2 })

/-- Clients take themselves for what the server takes them for. -/
structure Agrees (a : Arena F) : Prop where
  refines : ∃ e, a.server.rooms.Refines e
  numbered : a.server.rooms.Numbered
  clients : ∀ peer b, (a.clients peer).believes = some b → a.server.rooms.findBinding peer = some b

theorem agrees_start (tickIntervalMs : UInt32) (wheel : TimerWheel) (clock : Nat) :
    (start tickIntervalMs wheel clock : Arena F).Agrees where
  refines := ⟨⊥, GameRoomManager.refines_new tickIntervalMs⟩
  numbered := GameRoomManager.numbered_new tickIntervalMs
  clients := fun _ _ h => by cases h

variable [FloatArith F] [FloatBits F]

/-- What the party that the move is about does, and the datagrams it sends. -/
def react (a : Arena F) : Move → List Datagram × Arena F
  | .launch peer desiredRoom => a.answer peer ((a.clients peer).launch desiredRoom)
  | .resume peer now data => a.answer peer ((a.clients peer).resume F now data)
  | .datagram env data peer => a.serve (a.server.onDatagram env data peer)
  | .tick ord => a.serve (a.server.onTick ord)

/-- The arena on the network. -/
abbrev step : Lossy (Arena F) Datagram → Move → Lossy (Arena F) Datagram := Lossy.step react

/-- Only what has been sent is delivered, however late and however often. -/
abbrev Enabled : Lossy (Arena F) Datagram → Move → Prop := Lossy.Enabled Move.delivers

/-! ## Agreement -/

/-- Whatever is bound in `a` is bound in `a'` to the same player. -/
def Keeps (a a' : Arena F) : Prop :=
  ∀ peer b, a.server.rooms.findBinding peer = some b → a'.server.rooms.findBinding peer = some b

/-- What may be on its way: what a client says as the player that it is, and what the server says to it. -/
def Honest (a : Arena F) : Datagram → Prop
  | .up peer data => UdpGameClient.Says F (a.server.rooms.findBinding peer) data
  | .down d => a.server.rooms.Addressed d

section

variable {a : Arena F}

/-! ## Every party is honest -/

theorem Honest.mono {a' : Arena F} {d : Datagram} (h : a.Honest d) (hkeep : a.Keeps a') :
    a'.Honest d := by
  cases d with
  | up peer data => exact UdpGameClient.Says.mono h (hkeep peer)
  | down d => exact GameRoomManager.Addressed.congr h (hkeep d.peer)

/-- The client on an address goes on. -/
theorem Agrees.answer (h : a.Agrees) {peer : SockAddrIn} {next : List Bytes × UdpGameClient}
    (hclient : ∀ b, next.2.believes = some b → a.server.rooms.findBinding peer = some b)
    (hsaid : ∀ data ∈ next.1, UdpGameClient.Says F (a.server.rooms.findBinding peer) data) :
    (a.answer peer next).2.Agrees ∧ a.Keeps (a.answer peer next).2
      ∧ ∀ d ∈ (a.answer peer next).1, (a.answer peer next).2.Honest d := by
  refine ⟨⟨h.refines, h.numbered, fun peer' b hb => ?_⟩, fun _ _ hb => hb, ?_⟩
  · by_cases hpeer : peer' = peer
    · subst hpeer
      apply hclient
      rw [← hb]
      simp only [Arena.answer, Function.update_self]
    · apply h.clients
      rw [← hb]
      simp only [Arena.answer, Function.update_of_ne hpeer]
  · intro d hd
    obtain ⟨data, hdata, rfl⟩ := List.mem_map.mp hd
    exact hsaid data hdata

/-- The server goes on. -/
theorem Agrees.serve (h : a.Agrees) {next : List SendTo × GameServer F}
    (hrefines : ∃ e, next.2.rooms.Refines e) (hnumbered : next.2.rooms.Numbered)
    (hkeep : a.Keeps { a with server := next.2 }) (hsent : ∀ d ∈ next.1, next.2.rooms.Addressed d) :
    (a.serve next).2.Agrees ∧ a.Keeps (a.serve next).2
      ∧ ∀ d ∈ (a.serve next).1, (a.serve next).2.Honest d := by
  refine ⟨⟨hrefines, hnumbered, fun peer b hb => hkeep peer b (h.clients peer b hb)⟩, hkeep, ?_⟩
  intro d hd
  obtain ⟨d, hmem, rfl⟩ := List.mem_map.mp hd
  exact hsent d hmem

/-- **One step**, if what arrives is honest. -/
theorem Agrees.react (h : a.Agrees) (move : Move) (hmove : ∀ d ∈ move.delivers, a.Honest d) :
    (a.react move).2.Agrees ∧ a.Keeps (a.react move).2
      ∧ ∀ d ∈ (a.react move).1, (a.react move).2.Honest d := by
  obtain ⟨e, hm⟩ := h.refines
  cases move with
  | launch peer desiredRoom =>
      obtain ⟨hbelieves, hsaid⟩ := UdpGameClient.launch_sound (F := F) (a.clients peer) desiredRoom
        (a.server.rooms.findBinding peer)
      refine h.answer (fun b hb => ?_) hsaid
      rcases hbelieves with hsame | hnone
      · exact h.clients peer b (hsame ▸ hb)
      · rw [hnone] at hb
        cases hb
  | resume peer now data =>
      have htold : ∀ bytes ∈ data, ∀ packet, GameCodec.decode bytes = some packet →
          packet.header.msgType = .kS2CJoinAck → ∀ ack, GameCodec.decodeJoinAck packet = some ack →
            a.server.rooms.findBinding peer = some ack.binding := by
        intro bytes hbytes packet hpacket htype ack hack
        obtain rfl : data = some bytes := hbytes
        obtain ⟨b, hb, hsaid⟩ : a.server.rooms.Addressed ⟨bytes, peer⟩ := hmove _ rfl
        rw [(hsaid packet hpacket).2 htype ack hack]
        exact hb
      have hsound := @UdpGameClient.resume_sound F _ _ _ _ _ (h.clients peer) htold now
      exact h.answer hsound.1 hsound.2
  | datagram env data peer =>
      obtain ⟨packet, hpacket, hknown⟩ : ∃ packet, _ := (hmove _ rfl : UdpGameClient.Says F _ _).packet
      have hdatagram : a.server.onDatagram env data peer
          = ((a.server.rooms.handlePacket env packet peer).1,
            { a.server with rooms := (a.server.rooms.handlePacket env packet peer).2 }) := by
        simp only [GameServer.onDatagram, hpacket]
      obtain ⟨e', -, hm'⟩ := GameRoomManager.handlePacket_follows hm env packet peer
      simp only [Arena.react, hdatagram]
      exact h.serve ⟨e', hm'⟩ (h.numbered.handlePacket hm env packet peer)
        (fun _ _ hb => hm.findBinding_handlePacket hknown env hb)
        (hm.addressed_handlePacket h.numbered env hknown)
  | tick ord =>
      simp only [Arena.react, GameServer.onTick]
      split
      · exact h.serve ⟨e, hm⟩ h.numbered (fun _ _ hb => hb) fun d hd => absurd hd List.not_mem_nil
      · exact h.serve ⟨e, (GameRoomManager.quiet_tickAll _ ord).refines hm⟩ (h.numbered.tickAll ord)
          (fun _ _ hb => hb) (hm.addressed_tickAll h.numbered ord)

end

/-! ## Runs -/

/-- An arena on the network, before anything has happened. -/
def initial (tickIntervalMs : UInt32) (wheel : TimerWheel) (clock : Nat) : Lossy (Arena F) Datagram :=
  ⟨start tickIntervalMs wheel clock, []⟩

/-- One move on the network. -/
theorem sound_step {n : Lossy (Arena F) Datagram} (hn : Lossy.Sound Agrees Honest n) {move : Move}
    (hmove : Enabled n move) :
    Lossy.Sound Agrees Honest (step n move) ∧ n.parties.Keeps (step n move).parties := by
  have hreact := fun (a : Arena F) move h hmove => Agrees.react (a := a) h move hmove
  refine ⟨hn.step (fun a move h hmove => ?_) hmove, ?_⟩
  · obtain ⟨hagrees, hkeep, hsent⟩ := hreact a move h hmove
    exact ⟨hagrees, fun d hd => hd.mono hkeep, hsent⟩
  · exact (hreact n.parties move hn.1 fun d hd => hn.2 d (hmove d hd)).2.1

/-- **Whatever the network does**, the parties agree, what is on its way is honest, and what has once
been bound stays bound. -/
theorem sound_run {n : Lossy (Arena F) Datagram} (hn : Lossy.Sound Agrees Honest n) {moves : List Move}
    (hok : Admissible step Enabled n moves) :
    Lossy.Sound Agrees Honest (run step n moves) ∧ n.parties.Keeps (run step n moves).parties := by
  have hstep : ∀ (n' : Lossy (Arena F) Datagram) (move : Move),
      Lossy.Sound Agrees Honest n' ∧ n.parties.Keeps n'.parties → Enabled n' move →
      Lossy.Sound Agrees Honest (step n' move) ∧ n.parties.Keeps (step n' move).parties := by
    rintro n' move ⟨hn', hkept⟩ hmove
    obtain ⟨hsound, hkeep⟩ := sound_step hn' hmove
    exact ⟨hsound, fun peer b hb => hkeep peer b (hkept peer b hb)⟩
  exact run_invariant hstep ⟨hn, fun _ _ hb => hb⟩ hok

theorem sound_initial (tickIntervalMs : UInt32) (wheel : TimerWheel) (clock : Nat) :
    Lossy.Sound Agrees Honest (initial tickIntervalMs wheel clock : Lossy (Arena F) Datagram) :=
  ⟨agrees_start tickIntervalMs wheel clock, fun _ hd => absurd hd List.not_mem_nil⟩

/-- **Clients and server agree**, whatever is lost, repeated or reordered.  A client that has joined takes
itself for a player, and the server has bound its address to that player and sends the player's datagrams
there; no two clients are the same player; whatever the server has sent to an address names the player
that the address is bound to; and a binding stays as it is for good. -/
theorem clients_agree (tickIntervalMs : UInt32) (wheel : TimerWheel) (clock : Nat) (moves : List Move)
    (hok : Admissible step Enabled (initial tickIntervalMs wheel clock : Lossy (Arena F) Datagram) moves) :
    let n := run step (initial tickIntervalMs wheel clock : Lossy (Arena F) Datagram) moves
    (∀ peer b, (n.parties.clients peer).believes = some b →
        n.parties.server.rooms.findBinding peer = some b
          ∧ ∃ player, n.parties.server.rooms.record b = some player ∧ player.peer = peer)
      ∧ (∀ peer peer' b, (n.parties.clients peer).believes = some b →
          (n.parties.clients peer').believes = some b → peer = peer')
      ∧ (∀ d, .down d ∈ n.sent → ∃ b, n.parties.server.rooms.findBinding d.peer = some b
          ∧ ∀ packet, GameCodec.decode d.data = some packet → packet.header.binding = b)
      ∧ ∀ later, Admissible step Enabled n later → n.parties.Keeps (run step n later).parties := by
  intro n
  obtain ⟨hsound, -⟩ := sound_run (sound_initial tickIntervalMs wheel clock) hok
  obtain ⟨e, hm⟩ := hsound.1.refines
  have hplayer : ∀ peer b, (n.parties.clients peer).believes = some b →
      ∃ player, n.parties.server.rooms.record b = some player ∧ player.peer = peer := by
    intro peer b hbelieves
    have hid := hm.identity_of_index (hsound.1.clients peer b hbelieves)
    rw [GameRoomManager.identity_eq_record] at hid
    obtain ⟨player, hrecord, hwho⟩ := Option.map_eq_some_iff.mp hid
    exact ⟨player, hrecord, congrArg Identity.peer hwho⟩
  refine ⟨fun peer b h => ⟨hsound.1.clients peer b h, hplayer peer b h⟩, ?_, ?_, ?_⟩
  · intro peer peer' b h h'
    obtain ⟨player, hrecord, rfl⟩ := hplayer peer b h
    obtain ⟨player', hrecord', rfl⟩ := hplayer peer' b h'
    rw [Option.some.inj (hrecord.symm.trans hrecord')]
  · intro d hd
    obtain ⟨b, hb, hpacket⟩ : n.parties.server.rooms.Addressed d := hsound.2 _ hd
    exact ⟨b, hb, fun packet hdecode => (hpacket packet hdecode).1⟩
  · exact fun later hlater => (sound_run hsound hlater).2

/-- The address of a client. -/
def home : SockAddrIn := ⟨127, 0, 0, 1, 7000⟩

/-- What the server answers to the first join. -/
def firstAck : Bytes :=
  UdpGameClient.sendBuffer (GameCodec.buildPacket .kS2CJoinAck 1 1 0 0
    (GameCodec.encodeJoinAck { roomId := 1, playerId := 1, serverTick := 0, tickIntervalMs := 33 }))

/-- A client joins, its join arrives twice, and the first answer reaches it. -/
def joiningMoves : List Move :=
  [.launch home 0, .datagram ⟨.entries _, 0, 0⟩ (UdpGameClient.joinPacket 0) home,
    .datagram ⟨.entries _, 0, 0⟩ (UdpGameClient.joinPacket 0) home, .resume home 0 (some firstAck)]

theorem clients_agree_sample :
    let n := run step (initial 33 (.init 0) 0 : Lossy (Arena Binary32) Datagram) joiningMoves
    (n.parties.clients home).believes = some ⟨1, 1⟩
      ∧ n.parties.server.rooms.findBinding home = some ⟨1, 1⟩ := by
  have hbelieves : ((run step (initial 33 (.init 0) 0 : Lossy (Arena Binary32) Datagram)
      joiningMoves).parties.clients home).believes = some ⟨1, 1⟩ := by decide +kernel
  exact ⟨hbelieves, ((clients_agree 33 (.init 0) 0 joiningMoves (by decide +kernel)).1 _ _
    hbelieves).1⟩

end Arena

end LightNet.Game
