/-
# LightNet.Game.PacketFraming — packets and the byte strings that hold them.

A header of `size` bytes frames the packets when two things agree for every byte string: `decode`
accepts it exactly if it is long enough for the header and the announced payload, and encoding what
was decoded gives back the bytes that were read.  With the 28 bytes that `encode` writes this holds
of every byte string (`framedBy_written`).  `kHeaderSize`, which `decode` checks the length against
and which the format is announced with, is 24, and with 24 it fails on every packet.
-/
import LightNet.Game.Wire

namespace LightNet.Game.GameCodec

open LightNet.Foundation LightNet.Core

/-! ## What a byte string announces -/

/-- The magic number and the version are the right ones. -/
def Tagged (b : Bytes) : Prop := appendU32 kMagic ++ appendU8 kVersion <+: b

/-- The field `payload_len`, behind the first 24 bytes; bytes that are missing count as zero. -/
def announced (b : Bytes) : Nat := leNat ((b.drop 24).take 2)

/-- A header of `size` bytes, the right tags and the announced payload. -/
def WellFormed (size : Nat) (b : Bytes) : Prop :=
  size ≤ b.length ∧ Tagged b ∧ size + announced b ≤ b.length

/-- `decode` and `encode` agree on `b` about a header of `size` bytes. -/
def FramedBy (size : Nat) (b : Bytes) : Prop :=
  ((decode b).isSome ↔ WellFormed size b)
    ∧ ∀ packet, decode b = some packet → (encode packet).readable = b.take (size + announced b)

instance (b : Bytes) : Decidable (Tagged b) := inferInstanceAs (Decidable (_ <+: _))

instance (size : Nat) (b : Bytes) : Decidable (WellFormed size b) :=
  inferInstanceAs (Decidable (_ ∧ _ ∧ _))

theorem encodable_of_lt {packet : GamePacket} (hlen : packet.payload.length < 2 ^ 16) :
    Buffer.kCheapPrepend + (28 + packet.payload.length) ≤ Buffer.kMaxCapacity := by
  have hpre : Buffer.kCheapPrepend = 8 := rfl
  have hmax : Buffer.kMaxCapacity = 67108864 := rfl
  omega

theorem WellFormed.of_le {n size : Nat} {b : Bytes} (hle : n ≤ size) (h : WellFormed size b) :
    WellFormed n b :=
  ⟨le_trans hle h.1, h.2.1, le_trans (Nat.add_le_add_right hle _) h.2.2⟩

theorem tagged_packetBytes {packet : GamePacket} (hversion : packet.header.version = kVersion)
    (tail : Bytes) : Tagged (packetBytes packet ++ tail) := by
  rw [Tagged, packetBytes, hversion, ← List.append_assoc, List.append_assoc]
  exact List.prefix_append _ _

theorem announced_append {front : Bytes} (hfront : front.length = 24) (len : UInt16) (rest : Bytes) :
    announced (front ++ (appendU16 len ++ rest)) = len.toNat := by
  have hwidth : (appendU16 len).length = 2 := leBytes_length _ _
  rw [announced, List.drop_left' hfront, List.take_left' hwidth]
  exact leNat_leBytes_of_lt len.toNat_lt

/-- The eight fields in front of the length of the payload. -/
def front (header : GamePacketHeader) : Bytes :=
  appendU32 kMagic ++ (appendU8 header.version ++ (appendU8 header.msgType.raw
    ++ (appendU16 header.flags ++ (appendU32 header.roomId ++ (appendU32 header.playerId
    ++ (appendU32 header.seq ++ appendU32 header.tick))))))

theorem front_length (header : GamePacketHeader) : (front header).length = 24 := by
  simp only [front, List.length_append, appendU32, appendU16, appendU8, leBytes_length,
    List.length_cons, List.length_nil]

theorem packetBytes_eq {packet : GamePacket}
    (hlen : packet.header.payloadLen.toNat = packet.payload.length) :
    packetBytes packet = front packet.header ++ (appendU16 packet.header.payloadLen
      ++ (appendU16 packet.header.reserved ++ packet.payload)) := by
  simp only [packetBytes, front, ← hlen, appendU16, List.append_assoc]

theorem announced_packetBytes {packet : GamePacket}
    (hlen : packet.header.payloadLen.toNat = packet.payload.length) (tail : Bytes) :
    announced (packetBytes packet ++ tail) = packet.payload.length := by
  rw [packetBytes_eq hlen, List.append_assoc, List.append_assoc, announced_append (front_length _),
    hlen]

/-! ## The header that is written -/

theorem exists_appendU8 {xs : Bytes} (h : 1 ≤ xs.length) : ∃ v rest, xs = appendU8 v ++ rest := by
  obtain ⟨v, rest, hread⟩ := exists_readLe UInt8.ofNat h
  exact ⟨v, rest, readU8_eq_some hread⟩

theorem exists_appendU16 {xs : Bytes} (h : 2 ≤ xs.length) :
    ∃ v rest, xs = appendU16 v ++ rest := by
  obtain ⟨v, rest, hread⟩ := exists_readLe UInt16.ofNat h
  exact ⟨v, rest, readU16_eq_some hread⟩

theorem exists_appendU32 {xs : Bytes} (h : 4 ≤ xs.length) :
    ∃ v rest, xs = appendU32 v ++ rest := by
  obtain ⟨v, rest, hread⟩ := exists_readLe UInt32.ofNat h
  exact ⟨v, rest, readU32_eq_some hread⟩

@[simp] theorem appendU8_length (v : UInt8) : (appendU8 v).length = 1 := rfl
@[simp] theorem appendU16_length (v : UInt16) : (appendU16 v).length = 2 := leBytes_length _ _
@[simp] theorem appendU32_length (v : UInt32) : (appendU32 v).length = 4 := leBytes_length _ _

/-- The first fields of a header, read off whatever is long enough. -/
theorem exists_front {b : Bytes} (htag : Tagged b) (hlen : 24 ≤ b.length) :
    ∃ header rest, header.version = kVersion ∧ b = front header ++ rest := by
  obtain ⟨xs, rfl⟩ := htag
  simp only [List.length_append, appendU32_length, appendU8_length] at hlen
  obtain ⟨msgType, xs, rfl⟩ := @exists_appendU8 xs (by omega)
  simp only [List.length_append, appendU8_length] at hlen
  obtain ⟨flags, xs, rfl⟩ := @exists_appendU16 xs (by omega)
  simp only [List.length_append, appendU16_length] at hlen
  obtain ⟨roomId, xs, rfl⟩ := @exists_appendU32 xs (by omega)
  simp only [List.length_append, appendU32_length] at hlen
  obtain ⟨playerId, xs, rfl⟩ := @exists_appendU32 xs (by omega)
  simp only [List.length_append, appendU32_length] at hlen
  obtain ⟨seq, xs, rfl⟩ := @exists_appendU32 xs (by omega)
  simp only [List.length_append, appendU32_length] at hlen
  obtain ⟨tick, rest, rfl⟩ := @exists_appendU32 xs (by omega)
  refine ⟨{ msgType := ⟨msgType⟩, flags, roomId, playerId, seq, tick }, rest, rfl, ?_⟩
  simp only [front, List.append_assoc]

/-- A byte string with the right tags, 28 bytes and the announced payload holds a packet. -/
theorem exists_packetBytes {b : Bytes} (h : WellFormed 28 b) :
    ∃ packet tail, packet.header.version = kVersion
      ∧ packet.header.payloadLen.toNat = packet.payload.length ∧ b = packetBytes packet ++ tail := by
  obtain ⟨hsize, htag, hlen⟩ := h
  obtain ⟨header, xs, hversion, rfl⟩ := exists_front htag (by omega)
  rw [List.length_append, front_length] at hsize
  obtain ⟨payloadLen, xs, rfl⟩ := @exists_appendU16 xs (by omega)
  rw [announced_append (front_length _)] at hlen
  rw [List.length_append, appendU16_length] at hsize
  obtain ⟨reserved, xs, rfl⟩ := @exists_appendU16 xs (by omega)
  simp only [List.length_append, front_length, appendU16_length] at hlen
  have hpayload : (xs.take payloadLen.toNat).length = payloadLen.toNat :=
    List.length_take_of_le (by omega)
  refine ⟨⟨{ header with payloadLen, reserved }, xs.take payloadLen.toNat⟩,
    xs.drop payloadLen.toNat, hversion, hpayload.symm, ?_⟩
  rw [packetBytes_eq hpayload.symm]
  simp only [front, List.append_assoc, List.take_append_drop]

/-- **Framing with the written header.** A byte string is accepted exactly if it has the right magic
and version, 28 bytes and the announced payload, and then `encode` gives back these bytes. -/
theorem framedBy_written (b : Bytes) : FramedBy 28 b := by
  constructor
  · constructor
    · -- what is accepted starts with the bytes of a packet
      intro h
      obtain ⟨packet, hdecode⟩ := Option.isSome_iff_exists.mp h
      obtain ⟨hversion, hlen, tail, rfl⟩ := decode_eq_some.mp hdecode
      refine ⟨?_, tagged_packetBytes hversion tail, ?_⟩
      · rw [List.length_append, packetBytes_length]
        omega
      · rw [announced_packetBytes hlen, List.length_append, packetBytes_length]
        exact Nat.le_add_right _ _
    · intro h
      obtain ⟨packet, tail, hversion, hlen, hb⟩ := exists_packetBytes h
      rw [decode_eq_some.mpr ⟨hversion, hlen, tail, hb⟩]
      rfl
  · intro packet hdecode
    obtain ⟨-, hlen, tail, rfl⟩ := decode_eq_some.mp hdecode
    have hlt : packet.payload.length < 2 ^ 16 := by
      rw [← hlen]
      exact packet.header.payloadLen.toNat_lt
    rw [announced_packetBytes hlen, (encode_readable (encodable_of_lt hlt)).2,
      List.take_left' (packetBytes_length packet)]

/-! ## The header that is announced -/

/-- A byte string that has 24 bytes of header and the announced payload is not framed that way: it is
rejected, or what `encode` gives back is four bytes longer. -/
theorem not_framedBy_of_wellFormed {b : Bytes} (h : WellFormed kHeaderSize b) :
    ¬FramedBy kHeaderSize b := by
  rintro ⟨haccept, hencode⟩
  obtain ⟨packet, hdecode⟩ := Option.isSome_iff_exists.mp (haccept.mpr h)
  obtain ⟨hwritten, hfront⟩ := framedBy_written b
  have hlen := (hwritten.mp (by rw [hdecode]; rfl)).2.2
  have hsame : b.take (kHeaderSize + announced b) = b.take (28 + announced b) := by
    rw [← hencode packet hdecode, hfront packet hdecode]
  have hcount := congrArg List.length hsame
  rw [List.length_take, List.length_take, kHeaderSize] at hcount
  omega

theorem framedBy_of_not_wellFormed {b : Bytes} (h : ¬WellFormed kHeaderSize b) :
    FramedBy kHeaderSize b := by
  obtain ⟨hwritten, -⟩ := framedBy_written b
  have hnone : decode b = none := by
    rw [← Option.not_isSome_iff_eq_none]
    intro hsome
    exact h ((hwritten.mp hsome).of_le (by decide))
  refine ⟨?_, ?_⟩
  · rw [hnone]
    exact ⟨fun hsome => absurd hsome (by simp), fun hwf => absurd hwf h⟩
  · intro packet hdecode
    rw [hnone] at hdecode
    exact absurd hdecode (by simp)

/-- **The header of 24 bytes.** What `encode` writes for a packet of the current version is decoded to
that packet, whatever follows.  A byte string is framed by a header of `kHeaderSize` bytes if and only
if it is none: too short, or with the wrong magic or version. -/
theorem framedBy_iff (packet : GamePacket) (tail b : Bytes) :
    (packet.header.version = kVersion → packet.payload.length ≤ 65535 →
        decode ((encode packet).readable ++ tail) = some (received packet))
      ∧ (FramedBy kHeaderSize b ↔ ¬WellFormed kHeaderSize b) := by
  constructor
  · intro hversion hlen
    have hlt : packet.payload.length < 2 ^ 16 := by omega
    rw [(encode_readable (encodable_of_lt hlt)).2]
    exact decode_packetBytes hversion hlt tail
  · exact ⟨fun hframed hwf => not_framedBy_of_wellFormed hwf hframed, framedBy_of_not_wellFormed⟩

/-- A ping, followed by the first byte of the next packet. -/
theorem framedBy_iff_sample :
    let packet : GamePacket := ⟨{ msgType := .kC2SPing, seq := 7 }, [1, 2, 3, 4, 5, 6, 7, 8]⟩
    decode ((encode packet).readable ++ [80]) = some (received packet) := by
  intro packet
  exact (framedBy_iff packet [80] []).1 rfl (by decide)

/-- A header without a payload: the 28 bytes are accepted, and `encode` gives back all of them, not
the first 24. -/
theorem not_framedBy_header : ¬∀ b, FramedBy kHeaderSize b := by
  intro h
  exact not_framedBy_of_wellFormed (show WellFormed kHeaderSize (packetBytes ⟨{}, []⟩) by decide)
    (h (packetBytes ⟨{}, []⟩))

end LightNet.Game.GameCodec
