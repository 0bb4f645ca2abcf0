/-
# LightNet.Game.Payloads — the payload codecs, whole and truncated.

Every payload is read field by field, so each codec is the chain of its fields: the decoder returns
the value from its encoding with anything behind it, and from no strict prefix.  The one decoder that
accepts less is `decode_input`: after the 16 bytes of the movement it looks how much is left, and
without the last 16 bytes it fills in the default position.
-/
import LightNet.Foundation.Decoder
import LightNet.Game.Wire

namespace LightNet.Game.GameCodec

open LightNet.Foundation

/-! ## Fields -/

theorem parses_readU8 (v : UInt8) : Parses readU8 (appendU8 v) fun tail => some (v, tail) := by
  have hb : appendU8 v = leBytes 1 v.toNat := by simp [appendU8, leBytes]
  rw [hb]
  exact parses_readLe (by simp)

theorem parses_readU16 (v : UInt16) : Parses readU16 (appendU16 v) fun tail => some (v, tail) :=
  parses_readLe (by simp)

theorem parses_readU32 (v : UInt32) : Parses readU32 (appendU32 v) fun tail => some (v, tail) :=
  parses_readLe (by simp)

theorem parses_readU64 (v : UInt64) : Parses readU64 (appendU64 v) fun tail => some (v, tail) :=
  parses_readLe (by simp)

theorem parses_readI8 (v : Int8) : Parses readI8 (appendI8 v) fun tail => some (v, tail) := by
  have h := (parses_readU8 v.toUInt8).map UInt8.toInt8
  rwa [Int8.toInt8_toUInt8] at h

theorem parses_readI16 (v : Int16) : Parses readI16 (appendI16 v) fun tail => some (v, tail) := by
  have h := (parses_readU16 v.toUInt16).map UInt16.toInt16
  rwa [Int16.toInt16_toUInt16] at h

theorem parses_pad : Parses (readBytes 3) [0, 0, 0] fun tail => some ([0, 0, 0], tail) :=
  parses_readBytes rfl

variable {F : Type} [FloatBits F]

theorem parses_readF32 (v : F) : Parses readF32 (appendF32 v) fun tail => some (v, tail) := by
  have h := (parses_readU32 (FloatBits.toBits v)).map (FloatBits.ofBits : UInt32 → F)
  rwa [FloatBits.ofBits_toBits] at h

/-! ## Records -/

/-- `decode` reads `v` off a payload that starts with `bytes`, and rejects every strict prefix of
`bytes`, whatever the header of the packet. -/
def RoundTrips {α : Type} (decode : GamePacket → Option α) (bytes : Bytes) (v : α) : Prop :=
  ∀ header, (∀ tail, decode ⟨header, bytes ++ tail⟩ = some v)
    ∧ ∀ pre, pre <+: bytes → pre ≠ bytes → decode ⟨header, pre⟩ = none

theorem RoundTrips.of_parses {α : Type} {decode : GamePacket → Option α} {bytes : Bytes} {v : α}
    (h : ∀ header, Parses (fun xs => decode ⟨header, xs⟩) bytes fun _ => some v) :
    RoundTrips decode bytes v :=
  fun header => ⟨(h header).append, (h header).truncated⟩

theorem RoundTrips.decode_eq {α : Type} {decode : GamePacket → Option α} {bytes : Bytes} {v : α}
    (h : RoundTrips decode bytes v) (header : GamePacketHeader) :
    decode ⟨header, bytes⟩ = some v := by
  have hall := (h header).1 []
  rwa [List.append_nil] at hall

theorem decodeJoin_roundTrips (join : GameJoinPayload) :
    RoundTrips decodeJoin (encodeJoin join) join :=
  .of_parses fun _ => (parses_readU32 join.desiredRoomId).last _

theorem decodeJoinAck_roundTrips (ack : GameJoinAckPayload) :
    RoundTrips decodeJoinAck (encodeJoinAck ack) ack := by
  apply RoundTrips.of_parses
  intro header
  rw [encodeJoinAck, List.append_assoc, List.append_assoc]
  apply (parses_readU32 ack.roomId).field
  apply (parses_readU32 ack.playerId).field
  apply (parses_readU32 ack.serverTick).field
  exact (parses_readU32 ack.tickIntervalMs).last _

theorem decodeFire_roundTrips (fire : GameFirePayload F) :
    RoundTrips decodeFire (encodeFire fire) fire := by
  apply RoundTrips.of_parses
  intro header
  apply (parses_readU32 fire.clientTick).field
  apply (parses_readU8 fire.weaponId).field
  apply parses_pad.field
  apply (parses_readF32 fire.originX).field
  apply (parses_readF32 fire.originY).field
  apply (parses_readF32 fire.originZ).field
  apply (parses_readF32 fire.dirX).field
  apply (parses_readF32 fire.dirY).field
  exact (parses_readF32 fire.dirZ).last _

theorem decodeEvent_roundTrips (ev : GameEventPayload) :
    RoundTrips decodeEvent (encodeEvent ev) ev := by
  apply RoundTrips.of_parses
  intro header
  apply (parses_readU8 ev.eventType.raw).field
  apply parses_pad.field
  apply (parses_readU32 ev.targetId).field
  apply (parses_readU32 ev.value.toUInt32).field
  exact (parses_readU32 ev.extra).last _

theorem decodePing_roundTrips (clientSendTime : UInt64) :
    RoundTrips decodePing (encodePing clientSendTime) clientSendTime :=
  .of_parses fun _ => (parses_readU64 clientSendTime).last _

theorem decodePong_roundTrips (clientSend serverRecv serverSend : UInt64) :
    RoundTrips decodePong (encodePong clientSend serverRecv serverSend)
      (clientSend, serverRecv, serverSend) := by
  apply RoundTrips.of_parses
  intro header
  apply (parses_readU64 clientSend).field
  apply (parses_readU64 serverRecv).field
  exact (parses_readU64 serverSend).last _

theorem decodeWeapon_roundTrips (weapon : GameWeaponPayload) :
    RoundTrips decodeWeapon (encodeWeapon weapon) weapon := by
  apply RoundTrips.of_parses
  intro header
  apply (parses_readU8 weapon.weaponId).field
  exact parses_pad.last _

theorem decodeMatchState_roundTrips (m : GameMatchStatePayload) :
    RoundTrips decodeMatchState (encodeMatchState m) m := by
  apply RoundTrips.of_parses
  intro header
  apply (parses_readU32 m.timeLeftSec).field
  apply (parses_readU8 m.matchOver).field
  exact parses_pad.last _

/-! ## Texts and lists -/

/-- A text behind its length, as it is written when it is short enough. -/
theorem parses_text {text : Bytes} {limit : Nat} (hlimit : limit < 2 ^ 16) (h : text.length ≤ limit) :
    Parses (fun xs => readU16 xs >>= fun p => readBytes p.1.toNat p.2)
      (appendU16 (UInt16.ofNat (min text.length limit)) ++ text.take (min text.length limit))
      fun tail => some (text, tail) := by
  rw [Nat.min_eq_left h, List.take_length]
  have hcount : (UInt16.ofNat text.length).toNat = text.length :=
    UInt16.toNat_ofNat_of_lt' (lt_of_le_of_lt h hlimit)
  apply (parses_readU16 _).field
  exact parses_readBytes hcount.symm

theorem decodeChat_roundTrips {chat : GameChatPayload} (h : chat.text.length ≤ 200) :
    RoundTrips decodeChat (encodeChat chat) chat := by
  apply RoundTrips.of_parses
  intro header
  apply (parses_readU32 chat.senderId).field
  have htext := (parses_text (by decide) h).last fun p =>
    (pure { senderId := chat.senderId, text := p.1 } : Option GameChatPayload)
  simp only [bind_assoc] at htext
  exact htext

theorem decodeProfile_roundTrips {profile : GameProfilePayload} (h : profile.name.length ≤ 32) :
    RoundTrips decodeProfile (encodeProfile profile) profile := by
  apply RoundTrips.of_parses
  intro header
  have htext := (parses_text (by decide) h).last fun p =>
    (pure { name := p.1 } : Option GameProfilePayload)
  simp only [bind_assoc] at htext
  exact htext

theorem parses_readPlayer (pl : GamePlayerSnapshot F) :
    Parses readPlayer (encodePlayer pl) fun tail => some (pl, tail) := by
  apply (parses_readU32 pl.playerId).field
  apply (parses_readF32 pl.x).field
  apply (parses_readF32 pl.y).field
  apply (parses_readF32 pl.z).field
  apply (parses_readI16 pl.yaw).field
  apply (parses_readI16 pl.pitch).field
  apply (parses_readU16 pl.hp).field
  apply (parses_readU16 pl.stateFlags).field
  apply (parses_readU32 pl.lastInputSeq).field
  apply (parses_readU8 pl.weaponId).field
  apply (parses_readU8 pl.pad0).field
  apply (parses_readU16 pl.kills).field
  exact (parses_readU16 pl.deaths).last _

/-- The loop over the players fails when any record is cut. -/
theorem parses_readPlayers (players : List (GamePlayerSnapshot F)) :
    Parses (readPlayers players.length) (players.flatMap encodePlayer)
      fun tail => some (players, tail) := by
  induction players with
  | nil => exact Parses.nil _
  | cons pl players ih =>
      rw [List.flatMap_cons]
      apply (parses_readPlayer pl).field
      exact ih.last _

theorem decodeSnapshot_roundTrips {snap : GameSnapshotPayload F} (h : snap.players.length ≤ 255) :
    RoundTrips decodeSnapshot (encodeSnapshot snap) snap := by
  have hcount : (UInt8.ofNat snap.players.length).toNat = snap.players.length :=
    UInt8.toNat_ofNat_of_lt' (Nat.lt_succ_of_le h)
  have hplayers := parses_readPlayers snap.players
  rw [← hcount] at hplayers
  apply RoundTrips.of_parses
  intro header
  apply (parses_readU32 snap.serverTick).field
  apply (parses_readU8 _).field
  apply parses_pad.field
  exact hplayers.last _

/-! ## Input -/

/-- The fields of the old protocol. -/
def encodeMovement (input : GameInputPayload F) : Bytes :=
  appendU32 input.inputSeq ++ (appendU32 input.clientTick ++ (appendI8 input.moveX
    ++ (appendI8 input.moveY ++ (appendI16 input.yaw ++ (appendI16 input.pitch
    ++ appendU16 input.buttons)))))

/-- The part of an input that the old protocol does not have. -/
def encodePosition (input : GameInputPayload F) : Bytes :=
  appendF32 input.posX ++ (appendF32 input.posY ++ (appendF32 input.posZ
    ++ (appendU8 input.hasPos ++ [0, 0, 0])))

theorem encodeInput_eq (input : GameInputPayload F) :
    encodeInput input = encodeMovement input ++ encodePosition input := by
  simp only [encodeInput, encodeMovement, encodePosition, List.append_assoc]

omit [FloatBits F] in
theorem encodeMovement_length (input : GameInputPayload F) : (encodeMovement input).length = 16 := by
  simp [encodeMovement, appendU32, appendI8, appendI16, appendU16, appendU8]

theorem encodePosition_length (input : GameInputPayload F) : (encodePosition input).length = 16 := by
  simp [encodePosition, appendF32, appendU32, appendU8]

variable [FloatArith F]

/-! ## The old protocol -/

/-- An input of the old protocol: the movement, without a position of its own. -/
def legacyInput (input : GameInputPayload F) : GameInputPayload F :=
  { input with posX := 0.0, posY := 13.0, posZ := 0.0, hasPos := 0 }

/-- What `decode_input` does behind the movement. -/
def readPosition (input : GameInputPayload F) (xs : Bytes) : Option (GameInputPayload F) :=
  if 16 ≤ xs.length then do
    let (posX, xs) ← readF32 xs
    let (posY, xs) ← readF32 xs
    let (posZ, xs) ← readF32 xs
    let (hasPos, xs) ← readU8 xs
    let (_, _) ← readBytes 3 xs
    return { input with posX, posY, posZ, hasPos }
  else return legacyInput input

theorem parses_movement (input : GameInputPayload F) (header : GamePacketHeader) :
    Parses (fun xs => decodeInput ⟨header, xs⟩) (encodeMovement input) (readPosition input) := by
  apply (parses_readU32 input.inputSeq).field
  apply (parses_readU32 input.clientTick).field
  apply (parses_readI8 input.moveX).field
  apply (parses_readI8 input.moveY).field
  apply (parses_readI16 input.yaw).field
  apply (parses_readI16 input.pitch).field
  exact (parses_readU16 input.buttons).last _

theorem readPosition_append (input : GameInputPayload F) (tail : Bytes) :
    readPosition input (encodePosition input ++ tail) = some input := by
  have hlen : 16 ≤ (encodePosition input ++ tail).length := by
    rw [List.length_append, encodePosition_length]
    exact Nat.le_add_right _ _
  rw [readPosition, if_pos hlen]
  have hfields : Parses (fun xs => do
      let (posX, xs) ← readF32 xs
      let (posY, xs) ← readF32 xs
      let (posZ, xs) ← readF32 xs
      let (hasPos, xs) ← readU8 xs
      let (_, _) ← readBytes 3 xs
      return { input with posX, posY, posZ, hasPos }) (encodePosition input)
      fun _ => some input := by
    apply (parses_readF32 input.posX).field
    apply (parses_readF32 input.posY).field
    apply (parses_readF32 input.posZ).field
    apply (parses_readU8 input.hasPos).field
    exact parses_pad.last _
  exact hfields.append tail

/-- `decode_input` returns what was written; from a strict prefix it returns the movement alone, once
that is complete. -/
theorem decodeInput_encode (input : GameInputPayload F) (header : GamePacketHeader) :
    (∀ tail, decodeInput ⟨header, encodeInput input ++ tail⟩ = some input)
      ∧ ∀ pre, pre <+: encodeInput input → pre ≠ encodeInput input →
          decodeInput ⟨header, pre⟩
            = if 16 ≤ pre.length ∧ pre.length ≤ 31 then some (legacyInput input) else none := by
  have hmove := parses_movement input header
  rw [encodeInput_eq]
  constructor
  · intro tail
    rw [List.append_assoc, hmove.append, readPosition_append]
  · intro pre hpre hne
    have hlt : pre.length < 32 := by
      have hle := hpre.length_le
      have hlen : pre.length ≠ (encodeMovement input ++ encodePosition input).length :=
        fun hlen => hne (hpre.eq_of_length hlen)
      rw [List.length_append, encodeMovement_length, encodePosition_length] at hle hlen
      omega
    rcases List.prefix_or_prefix_of_prefix hpre (List.prefix_append _ _) with hin | ⟨rest, rfl⟩
    · by_cases hall : pre = encodeMovement input
      · -- the movement and nothing else
        subst hall
        rw [if_pos (by rw [encodeMovement_length]; omega), ← List.append_nil (encodeMovement input),
          hmove.append]
        rfl
      · have hshort : pre.length < 16 := by
          have hle := hin.length_le
          have hlen : pre.length ≠ (encodeMovement input).length :=
            fun hlen => hall (hin.eq_of_length hlen)
          rw [encodeMovement_length] at hle hlen
          omega
        rw [hmove.truncated pre hin hall, if_neg (by omega)]
    · -- the movement and a part of the position
      rw [List.length_append, encodeMovement_length] at hlt
      rw [hmove.append, readPosition, if_neg (by omega), if_pos]
      · rfl
      · rw [List.length_append, encodeMovement_length]
        omega

/-! ## All payloads -/

/-- **The payload codecs.** Every payload comes back from its encoding, whatever follows it, and no
strict prefix is accepted; only `decode_input` accepts the prefixes of 16 to 31 bytes, as the movement
with `has_pos = 0` and the default position. -/
theorem payloads_roundTrip :
    (∀ (input : GameInputPayload F) (header : GamePacketHeader),
        (∀ tail, decodeInput ⟨header, encodeInput input ++ tail⟩ = some input)
          ∧ ∀ pre, pre <+: encodeInput input → pre ≠ encodeInput input →
              decodeInput ⟨header, pre⟩
                = if 16 ≤ pre.length ∧ pre.length ≤ 31 then some (legacyInput input) else none)
      ∧ (∀ fire : GameFirePayload F, RoundTrips decodeFire (encodeFire fire) fire)
      ∧ (∀ join, RoundTrips decodeJoin (encodeJoin join) join)
      ∧ (∀ ack, RoundTrips decodeJoinAck (encodeJoinAck ack) ack)
      ∧ (∀ ev, RoundTrips decodeEvent (encodeEvent ev) ev)
      ∧ (∀ clientSendTime, RoundTrips decodePing (encodePing clientSendTime) clientSendTime)
      ∧ (∀ clientSend serverRecv serverSend,
          RoundTrips decodePong (encodePong clientSend serverRecv serverSend)
            (clientSend, serverRecv, serverSend))
      ∧ (∀ weapon, RoundTrips decodeWeapon (encodeWeapon weapon) weapon)
      ∧ (∀ m, RoundTrips decodeMatchState (encodeMatchState m) m)
      ∧ (∀ snap : GameSnapshotPayload F, snap.players.length ≤ 255 →
          RoundTrips decodeSnapshot (encodeSnapshot snap) snap)
      ∧ (∀ chat : GameChatPayload, chat.text.length ≤ 200 →
          RoundTrips decodeChat (encodeChat chat) chat)
      ∧ ∀ profile : GameProfilePayload, profile.name.length ≤ 32 →
          RoundTrips decodeProfile (encodeProfile profile) profile :=
  ⟨decodeInput_encode, decodeFire_roundTrips, decodeJoin_roundTrips, decodeJoinAck_roundTrips,
    decodeEvent_roundTrips, decodePing_roundTrips, decodePong_roundTrips, decodeWeapon_roundTrips,
    decodeMatchState_roundTrips, fun _ => decodeSnapshot_roundTrips, fun _ => decodeChat_roundTrips,
    fun _ => decodeProfile_roundTrips⟩

/-- A chat message cut after its first letter. -/
theorem payloads_roundTrip_sample :
    decodeChat ⟨{}, (encodeChat ⟨7, ascii ['h', 'i']⟩).take 7⟩ = none := by
  obtain ⟨-, -, -, -, -, -, -, -, -, -, hchat, -⟩ := @payloads_roundTrip Binary32 _ _
  exact (hchat ⟨7, ascii ['h', 'i']⟩ (by decide) {}).2 _ (List.take_prefix _ _) (by decide)

end LightNet.Game.GameCodec
