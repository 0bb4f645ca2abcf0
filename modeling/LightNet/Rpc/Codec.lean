/-
# LightNet.Rpc.Codec — the LNRP frame codec of `rpc/rpc_codec.cpp`.

A frame is `magic(4) | version(1) | type(1) | req_id(8) | method_len(2) | method | body_len(4) | body`
on a little-endian host.  `encode` and `decode` are the functions of the source on the faithful
`Buffer`; `decode` answers with the flag it returns, the buffer and `*out`.

`frame m` is the byte string of one message and `readFrame` the grammar of frames as a reader.  Both
directions are exact: `encode` writes `frame m` (`encode_readable`), and `decode` succeeds on a
buffer precisely when its readable bytes start with the frame of some message (`decode_readFrame`,
`readFrame_eq_some`).
-/
import LightNet.Core.BufferQueue
import LightNet.Foundation.Framing

namespace LightNet.Rpc

open LightNet.Foundation LightNet.Core

/-- `lightnet::RpcMessageType`, an `enum class` over `uint8_t`: any byte can be cast into it. -/
structure RpcMessageType where
  raw : UInt8
  deriving DecidableEq

namespace RpcMessageType
/-- A call that is answered. -/
def kRequest : RpcMessageType := ⟨1⟩
/-- The answer to a call. -/
def kResponse : RpcMessageType := ⟨2⟩
/-- A call that is not answered. -/
def kOneway : RpcMessageType := ⟨3⟩
end RpcMessageType

/-- `lightnet::RpcMessage`. -/
structure RpcMessage where
  type : RpcMessageType := .kRequest
  requestId : UInt64 := 0
  method : Bytes := []
  payload : Bytes := []
  deriving DecidableEq

namespace RpcCodec

/-- `"LNRP"`, with the first letter in the highest byte. -/
def kMagic : Nat := 0x4C4E5250
/-- The version of the protocol. -/
def kVersion : UInt8 := 1

/-- The number of bytes `encode` asks `ensure_writable` for. -/
def encodedSize (msg : RpcMessage) : Nat :=
  4 + 1 + 1 + 8 + 2 + msg.method.length + 4 + msg.payload.length

/-- `RpcCodec::encode`. -/
def encode (msg : RpcMessage) : Buffer :=
  let buf := Buffer.new.ensureWritable (encodedSize msg)
  let buf := buf.append (leBytes 4 kMagic)
  let buf := buf.append [kVersion]
  let buf := buf.append [msg.type.raw]
  let buf := buf.append (leBytes 8 msg.requestId.toNat)
  let buf := buf.append (leBytes 2 (msg.method.length % 2 ^ 16))
  let buf := buf.append msg.method
  let buf := buf.append (leBytes 4 (msg.payload.length % 2 ^ 32))
  buf.append msg.payload

/-- The bytes `p[off], …, p[off + len - 1]`. -/
def slice (p : Bytes) (off len : Nat) : Bytes := (p.drop off).take len

/-- `RpcCodec::decode`: what it returns, the buffer, and `*out`. -/
def decode (buf : Buffer) (out : RpcMessage) : Bool × Buffer × RpcMessage :=
  if buf.readableBytes < 16 then (false, buf, out)
  else
    let p := buf.peek buf.readableBytes
    if leNat (slice p 0 4) ≠ kMagic then (false, buf, out)
    else if slice p 4 1 ≠ [kVersion] then (false, buf, out)
    else
      let methodLen := leNat (slice p 14 2)
      let headerSize := 16 + methodLen + 4
      if buf.readableBytes < headerSize then (false, buf, out)
      else
        let bodyLen := leNat (slice p (16 + methodLen) 4)
        let total := headerSize + bodyLen
        if buf.readableBytes < total then (false, buf, out)
        else
          -- only a complete frame touches `*out` and the buffer
          (true, buf.retrieve total,
            { type := ⟨UInt8.ofNat (leNat (slice p 5 1))⟩
              requestId := UInt64.ofNat (leNat (slice p 6 8))
              method := slice p 16 methodLen
              payload := slice p headerSize bodyLen })

/-! ## The grammar of frames -/

/-- A message whose two lengths fit their fields. -/
structure Encodable (msg : RpcMessage) : Prop where
  method_lt : msg.method.length < 2 ^ 16
  payload_lt : msg.payload.length < 2 ^ 32

/-- The fixed part of a frame, up to the method. -/
def frameHead (msg : RpcMessage) : Bytes :=
  leBytes 4 kMagic ++ ([kVersion] ++ ([msg.type.raw] ++ (leBytes 8 msg.requestId.toNat
    ++ leBytes 2 msg.method.length)))

/-- The bytes of one frame. -/
def frame (msg : RpcMessage) : Bytes :=
  frameHead msg ++ (msg.method ++ (leBytes 4 msg.payload.length ++ msg.payload))

@[simp] theorem frameHead_length (msg : RpcMessage) : (frameHead msg).length = 16 := by
  simp [frameHead]

@[simp] theorem frame_length (msg : RpcMessage) : (frame msg).length = encodedSize msg := by
  simp only [frame, List.length_append, frameHead_length, leBytes_length, encodedSize]
  omega

/-- The fields that `encode` appends. -/
def fields (msg : RpcMessage) : List Bytes :=
  [leBytes 4 kMagic, [kVersion], [msg.type.raw], leBytes 8 msg.requestId.toNat,
    leBytes 2 (msg.method.length % 2 ^ 16), msg.method, leBytes 4 (msg.payload.length % 2 ^ 32),
    msg.payload]

theorem fields_flatten (msg : RpcMessage) : (fields msg).flatten = frame msg := by
  have hm : leBytes 2 (msg.method.length % 2 ^ 16) = leBytes 2 msg.method.length := leBytes_mod 2 _
  have hp : leBytes 4 (msg.payload.length % 2 ^ 32) = leBytes 4 msg.payload.length := leBytes_mod 4 _
  simp only [fields, List.flatten_cons, List.flatten_nil, hm, hp, frame, frameHead,
    List.append_assoc, List.append_nil]

theorem encode_eq_foldl (msg : RpcMessage) :
    encode msg = (fields msg).foldl Buffer.append (Buffer.new.ensureWritable (encodedSize msg)) := rfl

/-- `encode` writes the frame, as long as its request fits the buffer. -/
theorem encode_readable {msg : RpcMessage} (hfits : Buffer.new.Fits (encodedSize msg)) :
    (encode msg).Inv ∧ (encode msg).readable = frame msg := by
  have hlen : (fields msg).flatten.length ≤ encodedSize msg := by rw [fields_flatten, frame_length]
  have hspec := @Buffer.encoded_spec _ (fields msg) hfits (.inl hlen)
  rw [fields_flatten, ← encode_eq_foldl] at hspec
  exact hspec

/-! ## Reading frames -/

/-- One frame off the front of a byte string. -/
def readFrame : Reader RpcMessage := fun xs => do
  let (magic, xs) ← readBytes 4 xs
  guard (leNat magic = kMagic)
  let (version, xs) ← readBytes 1 xs
  guard (version = [kVersion])
  let (type, xs) ← readBytes 1 xs
  let (requestId, xs) ← readBytes 8 xs
  let (methodLen, xs) ← readBytes 2 xs
  let (method, xs) ← readBytes (leNat methodLen) xs
  let (bodyLen, xs) ← readBytes 4 xs
  let (payload, xs) ← readBytes (leNat bodyLen) xs
  return ({ type := ⟨UInt8.ofNat (leNat type)⟩, requestId := UInt64.ofNat (leNat requestId),
            method, payload }, xs)

/-- The message a frame with these fields stands for. -/
def ofFields (type requestId method payload : Bytes) : RpcMessage where
  type := ⟨UInt8.ofNat (leNat type)⟩
  requestId := UInt64.ofNat (leNat requestId)
  method := method
  payload := payload

/-- Fields of the right widths are those of the frame of `ofFields`. -/
theorem frame_ofFields {magic type requestId methodLen method bodyLen payload : Bytes}
    (hmagic : magic.length = 4) (hval : leNat magic = kMagic) (htype : type.length = 1)
    (hid : requestId.length = 8) (hml : methodLen.length = 2)
    (hmethod : method.length = leNat methodLen) (hbl : bodyLen.length = 4)
    (hpayload : payload.length = leNat bodyLen) :
    Encodable (ofFields type requestId method payload)
      ∧ frame (ofFields type requestId method payload)
        = magic ++ ([kVersion] ++ (type ++ (requestId ++ (methodLen ++ (method
          ++ (bodyLen ++ payload)))))) := by
  obtain ⟨t, rfl⟩ := List.length_eq_one_iff.mp htype
  have hmagic' : leBytes 4 kMagic = magic := by rw [← hval, leBytes_leNat_of_length hmagic]
  have htype' : UInt8.ofNat (leNat [t]) = t := by simp [leNat]
  have hid' : leBytes 8 (UInt64.ofNat (leNat requestId)).toNat = requestId := by
    have hlt := leNat_lt requestId
    rw [hid] at hlt
    rw [UInt64.toNat_ofNat_of_lt' hlt, leBytes_leNat_of_length hid]
  have hml' : leBytes 2 method.length = methodLen := by
    rw [hmethod, leBytes_leNat_of_length hml]
  have hbl' : leBytes 4 payload.length = bodyLen := by
    rw [hpayload, leBytes_leNat_of_length hbl]
  refine ⟨⟨?_, ?_⟩, ?_⟩
  · have hlt := leNat_lt methodLen
    rw [hml, ← hmethod] at hlt
    exact hlt
  · have hlt := leNat_lt bodyLen
    rw [hbl, ← hpayload] at hlt
    exact hlt
  · simp only [frame, frameHead, ofFields, hmagic', htype', hid', hml', hbl', List.append_assoc]

/-- The values that a reader computes from the fields of a frame. -/
theorem field_values {msg : RpcMessage} (h : Encodable msg) :
    leNat (leBytes 4 kMagic) = kMagic
      ∧ UInt8.ofNat (leNat [msg.type.raw]) = msg.type.raw
      ∧ UInt64.ofNat (leNat (leBytes 8 msg.requestId.toNat)) = msg.requestId
      ∧ leNat (leBytes 2 msg.method.length) = msg.method.length
      ∧ leNat (leBytes 4 msg.payload.length) = msg.payload.length := by
  refine ⟨leNat_leBytes_of_lt (by decide), ?_, ?_, leNat_leBytes_of_lt h.method_lt,
    leNat_leBytes_of_lt h.payload_lt⟩
  · simp [leNat]
  · rw [leNat_leBytes_of_lt msg.requestId.toNat_lt, UInt64.ofNat_toNat]

/-! ## What is read -/

/-- The fields of a frame are read off one by one. -/
theorem readFrame_frame {msg : RpcMessage} (h : Encodable msg) : Reads readFrame (frame msg) msg := by
  intro tail
  obtain ⟨hmval, htval, hidval, hmlval, hblval⟩ := field_values h
  obtain ⟨type, requestId, method, payload⟩ := msg
  have hmagic := readBytes_reads (leBytes_length 4 kMagic)
  have hversion := readBytes_reads (show [kVersion].length = 1 from rfl)
  have htype := readBytes_reads (show [type.raw].length = 1 from rfl)
  have hid := readBytes_reads (leBytes_length 8 requestId.toNat)
  have hml := readBytes_reads (leBytes_length 2 method.length)
  have hmethod := readBytes_reads (rfl : method.length = method.length)
  have hbl := readBytes_reads (leBytes_length 4 payload.length)
  have hpayload := readBytes_reads (rfl : payload.length = payload.length)
  dsimp only at htval hidval hmlval hblval
  simp only [readFrame, frame, frameHead, List.append_assoc, hmagic _, hversion _, htype _, hid _,
    hml _, hmlval, hmethod _, hbl _, hblval, hpayload _, hmval, htval, hidval, guard, if_true,
    Option.bind_eq_bind, Option.bind_some, Option.pure_def]

/-- **The grammar is exact**: a byte string is read as a message precisely when it starts with the
frame of that message. -/
theorem readFrame_eq_some {xs rest : Bytes} {msg : RpcMessage} :
    readFrame xs = some (msg, rest) ↔ Encodable msg ∧ xs = frame msg ++ rest := by
  constructor
  swap
  · rintro ⟨henc, rfl⟩
    exact readFrame_frame henc rest
  -- every byte read is one of the frame, so the fields read are the fields of `ofFields`
  intro h
  simp only [readFrame, Option.bind_eq_bind, Option.bind_eq_some_iff, Prod.exists,
    Option.guard_eq_some', Option.pure_def, readBytes_eq_some] at h
  obtain ⟨magic, _, ⟨rfl, hmagic⟩, ⟨⟩, hval, _, _, ⟨rfl, -⟩, ⟨⟩, rfl, type, _, ⟨rfl, htype⟩,
    requestId, _, ⟨rfl, hid⟩, methodLen, _, ⟨rfl, hml⟩, method, _, ⟨rfl, hmethod⟩,
    bodyLen, _, ⟨rfl, hbl⟩, payload, tail, ⟨rfl, hpayload⟩, heq⟩ := h
  obtain ⟨rfl, rfl⟩ := Prod.mk.inj (Option.some.inj heq)
  obtain ⟨henc, hframe⟩ := frame_ofFields hmagic hval htype hid hml hmethod hbl hpayload
  refine ⟨henc, ?_⟩
  have hassoc := congrArg (· ++ tail) hframe
  simp only [List.append_assoc] at hassoc
  exact hassoc.symm

/-- The frames as a framing of the byte stream. -/
def framing : Framing RpcMessage where
  read := readFrame
  frame := frame
  Encodable := Encodable
  read_eq_some := readFrame_eq_some
  frame_ne_nil := by
    intro msg h
    have hlen := frame_length msg
    rw [h, List.length_nil, encodedSize] at hlen
    omega

/-! ## `decode` reads the grammar -/

/-- A slice that starts behind the first part of a string is a slice of the second part. -/
theorem slice_skip {a b : Bytes} {off len : Nat} (h : a.length ≤ off) :
    slice (a ++ b) off len = slice b (off - a.length) len := by
  rw [slice, List.drop_append, List.drop_eq_nil_of_le h, List.nil_append, slice]

theorem slice_front {a b : Bytes} {len : Nat} (h : a.length = len) : slice (a ++ b) 0 len = a := by
  subst h
  rw [slice, List.drop_zero, List.take_left]

/-- The first `n` bytes, split off. -/
theorem exists_front (xs : Bytes) (n : Nat) (h : n ≤ xs.length) :
    ∃ a b, xs = a ++ b ∧ a.length = n :=
  ⟨xs.take n, xs.drop n, (List.take_append_drop n xs).symm, List.length_take_of_le h⟩

/-- The slices of the fixed part, and of what follows it. -/
theorem slice_head {magic version type requestId methodLen : Bytes} (hmagic : magic.length = 4)
    (hversion : version.length = 1) (htype : type.length = 1) (hid : requestId.length = 8)
    (hml : methodLen.length = 2) (tail : Bytes) {p : Bytes}
    (hp : p = magic ++ (version ++ (type ++ (requestId ++ (methodLen ++ tail))))) :
    slice p 0 4 = magic ∧ slice p 4 1 = version ∧ slice p 5 1 = type ∧ slice p 6 8 = requestId
      ∧ slice p 14 2 = methodLen ∧ ∀ off len, slice p (16 + off) len = slice tail off len := by
  subst hp
  refine ⟨?_, ?_, ?_, ?_, ?_, ?_⟩
  · rw [slice_front hmagic]
  · rw [slice_skip (by omega), hmagic, slice_front hversion]
  · rw [slice_skip (by omega), hmagic, slice_skip (by omega), hversion, slice_front htype]
  · rw [slice_skip (by omega), hmagic, slice_skip (by omega), hversion, slice_skip (by omega), htype,
      slice_front hid]
  · rw [slice_skip (by omega), hmagic, slice_skip (by omega), hversion, slice_skip (by omega), htype,
      slice_skip (by omega), hid, slice_front hml]
  · intro off len
    rw [slice_skip (by omega), slice_skip (by omega), slice_skip (by omega), slice_skip (by omega),
      slice_skip (by omega), hmagic, hversion, htype, hid, hml]
    congr 1
    omega

/-- The slices of the method and the payload. -/
theorem slice_tail {method bodyLen payload : Bytes} (hbl : bodyLen.length = 4) (rest : Bytes)
    {tail : Bytes} (htail : tail = method ++ (bodyLen ++ (payload ++ rest))) :
    slice tail 0 method.length = method ∧ slice tail method.length 4 = bodyLen
      ∧ slice tail (method.length + 4) payload.length = payload := by
  subst htail
  refine ⟨slice_front rfl, ?_, ?_⟩
  · rw [slice_skip (le_refl _), Nat.sub_self, slice_front hbl]
  · rw [slice_skip (Nat.le_add_right _ _), Nat.add_sub_cancel_left, slice_skip (le_of_eq hbl), hbl,
      Nat.sub_self, slice_front rfl]

/-! ## The refinement -/

/-- What `decode` does where the readable bytes start with a frame. -/
theorem decode_frame {buf : Buffer} (hinv : buf.Inv) (out : RpcMessage) {msg : RpcMessage}
    {rest : Bytes} (henc : Encodable msg) (hread : buf.readable = frame msg ++ rest) :
    decode buf out = (true, buf.retrieve (frame msg).length, msg) := by
  obtain ⟨hmval, htval, hidval, hmlval, hblval⟩ := field_values henc
  obtain ⟨type, requestId, method, payload⟩ := msg
  dsimp only at htval hidval hmlval hblval
  have hlen : buf.readableBytes = 16 + method.length + 4 + payload.length + rest.length := by
    rw [hinv.readableBytes_eq_length, hread, List.length_append, frame_length, encodedSize]
  have hparts : buf.readable = leBytes 4 kMagic ++ ([kVersion] ++ ([type.raw]
      ++ (leBytes 8 requestId.toNat ++ (leBytes 2 method.length
        ++ (method ++ (leBytes 4 payload.length ++ (payload ++ rest))))))) := by
    rw [hread]
    simp only [frame, frameHead, List.append_assoc]
  obtain ⟨hs0, hs4, hs5, hs6, hs14, hs16⟩ := slice_head (leBytes_length 4 _) rfl rfl
    (leBytes_length 8 _) (leBytes_length 2 _) _ hparts
  obtain ⟨hmethod, hbody, hpayload⟩ := slice_tail (leBytes_length 4 payload.length) rest
    (rfl : method ++ (leBytes 4 payload.length ++ (payload ++ rest)) = _)
  have hmethod' := (hs16 0 method.length).trans hmethod
  have hbody' := (hs16 method.length 4).trans hbody
  have hpayload' := (hs16 (method.length + 4) payload.length).trans hpayload
  rw [← Nat.add_assoc] at hpayload'
  simp only [Nat.add_zero] at hmethod'
  have hsize : (frame ⟨type, requestId, method, payload⟩).length
      = 16 + method.length + 4 + payload.length := by
    rw [frame_length, encodedSize]
  simp only [decode, hinv.peek_readableBytes, hs0, hs4, hs5, hs6, hs14, hmval, hmlval, hmethod', hbody',
    hblval, hpayload', htval, hidval, hsize]
  rw [if_neg (by omega), if_neg (by simp), if_neg (by simp), if_neg (by omega), if_neg (by omega)]

/-- A string that passes every test of `decode` starts with a frame. -/
theorem exists_frame {p : Bytes} (hmagic : leNat (slice p 0 4) = kMagic)
    (hversion : slice p 4 1 = [kVersion]) (hheader : 16 + leNat (slice p 14 2) + 4 ≤ p.length)
    (htotal : 16 + leNat (slice p 14 2) + 4 + leNat (slice p (16 + leNat (slice p 14 2)) 4)
      ≤ p.length) :
    ∃ msg rest, Encodable msg ∧ p = frame msg ++ rest := by
  -- split the five fixed fields off one by one; their slices then give the lengths that follow
  obtain ⟨magic, p₁, h₁, hmlen⟩ := exists_front p 4 (by omega)
  have hl₁ := congrArg List.length h₁
  rw [List.length_append] at hl₁
  obtain ⟨version, p₂, rfl, hvlen⟩ := exists_front p₁ 1 (by omega)
  rw [List.length_append] at hl₁
  obtain ⟨type, p₃, rfl, htlen⟩ := exists_front p₂ 1 (by omega)
  rw [List.length_append] at hl₁
  obtain ⟨requestId, p₄, rfl, hilen⟩ := exists_front p₃ 8 (by omega)
  rw [List.length_append] at hl₁
  obtain ⟨methodLen, tail, rfl, hllen⟩ := exists_front p₄ 2 (by omega)
  rw [List.length_append] at hl₁
  obtain ⟨hs0, hs4, -, -, hs14, hs16⟩ := slice_head hmlen hvlen htlen hilen hllen tail h₁
  rw [hs0] at hmagic
  rw [hs4] at hversion
  rw [hs14] at hheader htotal
  obtain ⟨method, t₁, rfl, hmethod⟩ := exists_front tail (leNat methodLen) (by omega)
  rw [List.length_append] at hl₁
  obtain ⟨bodyLen, t₂, rfl, hbl⟩ := exists_front t₁ 4 (by omega)
  rw [List.length_append] at hl₁
  have hbody : slice p (16 + leNat methodLen) 4 = bodyLen := by
    rw [hs16, slice_skip (le_of_eq hmethod), hmethod, Nat.sub_self, slice_front hbl]
  rw [hbody] at htotal
  obtain ⟨payload, rest, rfl, hpayload⟩ := exists_front t₂ (leNat bodyLen) (by omega)
  obtain ⟨henc, hframe⟩ := frame_ofFields hmlen hmagic htlen hilen hllen hmethod hbl hpayload
  refine ⟨_, rest, henc, ?_⟩
  rw [hframe, h₁, hversion]
  simp only [List.append_assoc]

/-- **`decode` reads the grammar**: it takes the message the grammar reads and retrieves its frame,
or it answers `false` and touches neither the buffer nor `*out`. -/
theorem decode_readFrame {buf : Buffer} (hinv : buf.Inv) (out : RpcMessage) :
    decode buf out = match readFrame buf.readable with
      | some (msg, _) => (true, buf.retrieve (frame msg).length, msg)
      | none => (false, buf, out) := by
  cases hread : readFrame buf.readable with
  | some r =>
      obtain ⟨henc, hframe⟩ := readFrame_eq_some.mp hread
      exact decode_frame hinv out henc hframe
  | none =>
      have hlen := hinv.readableBytes_eq_length
      unfold decode
      simp only [hinv.peek_readableBytes]
      rw [hlen]
      split
      · rfl
      split
      · rfl
      split
      · rfl
      split
      · rfl
      split
      · rfl
      · -- every test passes, so the grammar would have read a message
        rename_i hmagic hversion hheader htotal
        obtain ⟨msg, rest, henc, hframe⟩ := exists_frame (not_not.mp hmagic) (not_not.mp hversion)
          (Nat.not_lt.mp hheader) (Nat.not_lt.mp htotal)
        rw [readFrame_eq_some.mpr ⟨henc, hframe⟩] at hread
        exact absurd hread (by simp)

end RpcCodec

end LightNet.Rpc
