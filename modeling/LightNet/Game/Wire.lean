/-
# LightNet.Game.Wire — what the game codec writes, it reads back.

Field by field: each reader returns the value that was written and leaves what follows.
`packetBytes` are the bytes of a packet; `encode` writes them, and `decode` finds the packet at the
front of whatever starts with them.  A snapshot has one byte for its player count, so none that is
decoded has more than 255 players.
-/
import LightNet.Game.Codec

namespace LightNet.Game.GameCodec

open LightNet.Foundation LightNet.Core

/-! ## Fields -/

@[simp] theorem readU8_append (v : UInt8) (tail : Bytes) :
    readU8 (appendU8 v ++ tail) = some (v, tail) := by
  have hb : appendU8 v = leBytes 1 v.toNat := by simp [appendU8, leBytes]
  rw [hb]
  exact readLe_reads (by simp) tail

@[simp] theorem readU16_append (v : UInt16) (tail : Bytes) :
    readU16 (appendU16 v ++ tail) = some (v, tail) :=
  readLe_reads (by simp) tail

@[simp] theorem readU32_append (v : UInt32) (tail : Bytes) :
    readU32 (appendU32 v ++ tail) = some (v, tail) :=
  readLe_reads (by simp) tail

theorem readU8_eq_some {v : UInt8} {xs rest : Bytes} (h : readU8 xs = some (v, rest)) :
    xs = appendU8 v ++ rest := by
  have hb : appendU8 v = leBytes 1 v.toNat := by simp [appendU8, leBytes]
  rw [hb]
  exact readLe_eq_some (fun _ => UInt8.toNat_ofNat_of_lt') h

theorem readU16_eq_some {v : UInt16} {xs rest : Bytes} (h : readU16 xs = some (v, rest)) :
    xs = appendU16 v ++ rest :=
  readLe_eq_some (fun _ => UInt16.toNat_ofNat_of_lt') h

theorem readU32_eq_some {v : UInt32} {xs rest : Bytes} (h : readU32 xs = some (v, rest)) :
    xs = appendU32 v ++ rest :=
  readLe_eq_some (fun _ => UInt32.toNat_ofNat_of_lt') h

variable {F : Type} [FloatBits F]

/-! ## Snapshots -/

/-- The loop reads as many players as it is told to. -/
theorem readPlayers_length {n : Nat} {xs rest : Bytes} {players : List (GamePlayerSnapshot F)}
    (h : readPlayers n xs = some (players, rest)) : players.length = n := by
  induction n generalizing xs rest players with
  | zero =>
      obtain ⟨rfl, -⟩ := Prod.mk.inj (Option.some.inj h)
      rfl
  | succ n ih =>
      simp only [readPlayers, Option.bind_eq_bind, Option.bind_eq_some_iff, Prod.exists,
        Option.pure_def] at h
      obtain ⟨player, xs', -, players', xs'', h', heq⟩ := h
      obtain ⟨rfl, -⟩ := Prod.mk.inj (Option.some.inj heq)
      rw [List.length_cons, ih h']

theorem encodePlayer_length (pl : GamePlayerSnapshot F) : (encodePlayer pl).length = 34 := by
  simp [encodePlayer, appendU32, appendF32, appendI16, appendU16, appendU8]

theorem encodeSnapshot_length (snap : GameSnapshotPayload F) :
    (encodeSnapshot snap).length = 8 + 34 * snap.players.length := by
  have hsum : (snap.players.flatMap encodePlayer).length = 34 * snap.players.length := by
    induction snap.players with
    | nil => rfl
    | cons player players ih =>
        rw [List.flatMap_cons, List.length_append, ih, encodePlayer_length, List.length_cons]
        omega
  simp only [encodeSnapshot, List.length_append, hsum, appendU32, appendU8, leBytes_length,
    List.length_cons, List.length_nil]
  omega

/-- Whatever is decoded as a snapshot has at most 255 players. -/
theorem decodeSnapshot_length {packet : GamePacket} {snap : GameSnapshotPayload F}
    (h : decodeSnapshot packet = some snap) : snap.players.length ≤ 255 := by
  simp only [decodeSnapshot, Option.bind_eq_bind, Option.bind_eq_some_iff, Prod.exists,
    Option.pure_def] at h
  obtain ⟨_, _, -, count, _, -, _, _, -, players, _, hread, heq⟩ := h
  obtain rfl := Option.some.inj heq
  have hlt : count.toNat < 256 := count.toNat_lt
  rw [readPlayers_length hread]
  omega

/-! ## Packets -/

/-- The bytes of a packet. -/
def packetBytes (packet : GamePacket) : Bytes :=
  appendU32 kMagic ++ (appendU8 packet.header.version ++ (appendU8 packet.header.msgType.raw
    ++ (appendU16 packet.header.flags ++ (appendU32 packet.header.roomId
    ++ (appendU32 packet.header.playerId ++ (appendU32 packet.header.seq
    ++ (appendU32 packet.header.tick ++ (leBytes 2 packet.payload.length
    ++ (appendU16 packet.header.reserved ++ packet.payload)))))))))

theorem packetBytes_length (packet : GamePacket) :
    (packetBytes packet).length = 28 + packet.payload.length := by
  simp only [packetBytes, List.length_append, appendU32, appendU16, appendU8, leBytes_length,
    List.length_cons, List.length_nil]
  omega

/-- The ten fields in front of the payload, as `encode` writes them. -/
def headFields (packet : GamePacket) : List Bytes :=
  [appendU32 kMagic, appendU8 packet.header.version, appendU8 packet.header.msgType.raw,
    appendU16 packet.header.flags, appendU32 packet.header.roomId,
    appendU32 packet.header.playerId, appendU32 packet.header.seq, appendU32 packet.header.tick,
    leBytes 2 (packet.payload.length % 2 ^ 16), appendU16 packet.header.reserved]

theorem packetBytes_head (packet : GamePacket) :
    packetBytes packet = (headFields packet).flatten ++ packet.payload := by
  have hlen : leBytes 2 (packet.payload.length % 2 ^ 16) = leBytes 2 packet.payload.length :=
    leBytes_mod 2 _
  simp only [headFields, hlen, packetBytes, List.flatten_cons, List.flatten_nil, List.append_assoc,
    List.nil_append]

theorem headFields_length (packet : GamePacket) : (headFields packet).flatten.length = 28 := by
  have h := packetBytes_length packet
  rw [packetBytes_head, List.length_append] at h
  omega

theorem encode_eq (packet : GamePacket) :
    encode packet
      = if packet.payload ≠ [] then
          ((headFields packet).foldl Buffer.append
            (Buffer.new.ensureWritable (kHeaderSize + packet.payload.length))).append packet.payload
        else (headFields packet).foldl Buffer.append
          (Buffer.new.ensureWritable (kHeaderSize + packet.payload.length)) := rfl

/-- `encode` writes the packet, as long as the vector may grow that far.  `kHeaderSize` is four bytes
short of the header, so the last field makes room of its own. -/
theorem encode_readable {packet : GamePacket}
    (hcap : Buffer.kCheapPrepend + (28 + packet.payload.length) ≤ Buffer.kMaxCapacity) :
    (encode packet).Inv ∧ (encode packet).readable = packetBytes packet := by
  -- an empty payload is not appended
  let fields : List Bytes :=
    if packet.payload ≠ [] then headFields packet ++ [packet.payload] else headFields packet
  have hencode : encode packet
      = fields.foldl Buffer.append (Buffer.new.ensureWritable (kHeaderSize + packet.payload.length)) := by
    simp only [encode_eq, fields]
    split
    · rw [List.foldl_append]
      rfl
    · rfl
  have hflat : fields.flatten = packetBytes packet := by
    rw [packetBytes_head]
    by_cases hp : packet.payload = []
    · have hfields : fields = headFields packet := if_neg (not_not.mpr hp)
      rw [hfields, hp, List.append_nil]
    · have hfields : fields = headFields packet ++ [packet.payload] := if_pos hp
      rw [hfields, List.flatten_append, List.flatten_singleton]
  have hfits : Buffer.new.Fits (kHeaderSize + packet.payload.length) := by
    apply Buffer.Fits.of_le
    apply le_trans _ hcap
    exact Nat.add_le_add_left (Nat.add_le_add_right (by decide) _) _
  rw [hencode, ← hflat]
  exact Buffer.encoded_spec hfits (.inr (by rwa [hflat, packetBytes_length]))

/-- However long the payload is, what `encode` leaves to be sent starts with the header. -/
theorem encode_front {packet : GamePacket} (hlen : packet.payload.length < 2 ^ 61) :
    (headFields packet).flatten <+: (encode packet).peek (encode packet).readableBytes := by
  have hhead := headFields_length packet
  have hmax : Buffer.kMaxCapacity = 67108864 := rfl
  have hpre : Buffer.kCheapPrepend = 8 := rfl
  by_cases hcap : Buffer.kCheapPrepend + (28 + packet.payload.length) ≤ Buffer.kMaxCapacity
  · obtain ⟨hinv, hread⟩ := encode_readable hcap
    rw [hinv.peek_readableBytes, hread, packetBytes_head]
    exact List.prefix_append _ _
  · -- the vector holds the header, but not the whole payload
    have hpayload : packet.payload ≠ [] := by
      intro hnil
      rw [hnil, List.length_nil] at hcap
      omega
    have hroom : ∃ len, 28 ≤ len
        ∧ Buffer.Room .new (Buffer.new.ensureWritable (kHeaderSize + packet.payload.length)) len := by
      have hsize : kHeaderSize = 24 := rfl
      by_cases hf : Buffer.new.Fits (kHeaderSize + packet.payload.length)
      · exact ⟨_, by omega, Buffer.ensureWritable_room Buffer.new_inv hf⟩
      · have hw : Buffer.new.writerIndex = 8 := rfl
        have hs : Buffer.new.size = 8 + 1024 := Buffer.new_size
        have hgrown := @Buffer.resize_room .new Buffer.new_inv (Buffer.kMaxCapacity - 8)
          (by omega) (by omega)
        rw [hw, Nat.add_sub_cancel' (by omega)] at hgrown
        rw [Buffer.ensureWritable_of_not_fits Buffer.new_inv (by omega) hf]
        exact ⟨_, by omega, hgrown⟩
    obtain ⟨len, hle, hroom⟩ := hroom
    have hwriter : (Buffer.new.ensureWritable (kHeaderSize + packet.payload.length)).writerIndex
        ≤ 8 := hroom.writer_le
    have hend := hroom.room
    obtain ⟨hinv, hread, hlast⟩ :=
      @Buffer.foldl_append_spec _ hroom.inv (headFields packet) (.inl (by omega))
    rw [hroom.readable_eq, Buffer.new_readable, List.nil_append] at hread
    rw [encode_eq, if_pos hpayload, ← hread]
    exact Buffer.append_front hinv (by omega) (by omega)

/-! ## Decoding -/

/-- The packet as it is read: the payload length is the one on the wire. -/
def received (packet : GamePacket) : GamePacket :=
  { packet with header := { packet.header with payloadLen := UInt16.ofNat packet.payload.length } }

/-- A packet is found at the front of whatever starts with its bytes. -/
theorem decode_packetBytes {packet : GamePacket} (hversion : packet.header.version = kVersion)
    (hlen : packet.payload.length < 2 ^ 16) (tail : Bytes) :
    decode (packetBytes packet ++ tail) = some (received packet) := by
  have hsize : kHeaderSize ≤ (packetBytes packet ++ tail).length := by
    rw [List.length_append, packetBytes_length, kHeaderSize]
    omega
  have hpl : ∀ tail, readU16 (leBytes 2 packet.payload.length ++ tail)
      = some (UInt16.ofNat packet.payload.length, tail) := by
    intro tail
    exact readLe_reads (congrArg UInt16.ofNat (Nat.mod_eq_of_lt hlen)) tail
  have hcount : (UInt16.ofNat packet.payload.length).toNat = packet.payload.length := by
    rw [UInt16.toNat_ofNat', Nat.mod_eq_of_lt hlen]
  have hpayload := readBytes_reads (rfl : packet.payload.length = packet.payload.length)
  unfold decode
  rw [guard, if_pos hsize]
  simp only [packetBytes, List.append_assoc, readU32_append, readU8_append, readU16_append, hpl,
    hcount, hpayload _, hversion, guard, if_true, Option.bind_eq_bind, Option.bind_some,
    Option.pure_def, received]

/-- **The packet grammar is exact**: `decode` finds a packet precisely at the front of the byte
strings that start with its bytes. -/
theorem decode_eq_some {data : Bytes} {packet : GamePacket} :
    decode data = some packet
      ↔ packet.header.version = kVersion ∧ packet.header.payloadLen.toNat = packet.payload.length
        ∧ ∃ tail, data = packetBytes packet ++ tail := by
  constructor
  · intro h
    simp only [decode, Option.bind_eq_bind, Option.bind_eq_some_iff, Prod.exists,
      Option.guard_eq_some', Option.pure_def, readBytes_eq_some] at h
    obtain ⟨⟨⟩, -, magic, _, hmagic, ⟨⟩, rfl, version, _, hversion, ⟨⟩, rfl, msgType, _, htype,
      flags, _, hflags, roomId, _, hroom, playerId, _, hplayer, seq, _, hseq, tick, _, htick,
      payloadLen, _, hlen, reserved, _, hreserved, payload, tail, ⟨rfl, hpayload⟩, heq⟩ := h
    obtain rfl := Option.some.inj heq
    refine ⟨rfl, hpayload.symm, tail, ?_⟩
    rw [readU32_eq_some hmagic, readU8_eq_some hversion, readU8_eq_some htype,
      readU16_eq_some hflags, readU32_eq_some hroom, readU32_eq_some hplayer,
      readU32_eq_some hseq, readU32_eq_some htick, readU16_eq_some hlen,
      readU16_eq_some hreserved]
    simp only [packetBytes, hpayload, appendU16, List.append_assoc]
  · rintro ⟨hversion, hlen, tail, rfl⟩
    have hlt : packet.payload.length < 2 ^ 16 := by
      rw [← hlen]
      exact packet.header.payloadLen.toNat_lt
    have hsame : received packet = packet := by
      rw [received, ← hlen, UInt16.ofNat_toNat]
    rw [decode_packetBytes hversion hlt, hsame]

/-- What is sent is of the type of the packet, even where its payload is too long to be sent. -/
theorem decode_encode_type {packet packet' : GamePacket} (hlen : packet.payload.length < 2 ^ 61)
    (h : decode ((encode packet).peek (encode packet).readableBytes) = some packet') :
    packet'.header.msgType = packet.header.msgType := by
  obtain ⟨-, -, tail, hdata⟩ := decode_eq_some.mp h
  have hfront := encode_front hlen
  rw [hdata] at hfront
  -- the type is the sixth byte of both
  have hbyte : (headFields packet).flatten[5]? = (packetBytes packet' ++ tail)[5]? := by
    obtain ⟨rest, hrest⟩ := hfront
    rw [← hrest, List.getElem?_append_left]
    rw [headFields_length]
    decide
  have hraw : some packet.header.msgType.raw = some packet'.header.msgType.raw := hbyte
  exact congrArg GameMsgType.mk (Option.some.inj hraw).symm

end LightNet.Game.GameCodec
