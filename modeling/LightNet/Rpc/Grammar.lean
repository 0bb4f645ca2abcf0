/-
# LightNet.Rpc.Grammar — what `decode` accepts, against what `encode` writes.

The messages that `decode` takes are given by the grammar of frames alone; the messages that `encode`
can write are bounded by the capacity of a `Buffer` as well.  So the two agree on a buffer unless it
begins with the frame of a message that no `Buffer` of `encode` can hold.
-/
import LightNet.Rpc.Codec

namespace LightNet.Rpc

open LightNet.Foundation LightNet.Core

namespace RpcCodec

/-- The unread bytes are `encode(msg)`, written inside its buffer, and `rest`. -/
structure Begins (buf : Buffer) (msg : RpcMessage) (rest : Bytes) : Prop where
  encodable : Encodable msg
  inside : (encode msg).Inv
  readable : buf.readable = (encode msg).readable ++ rest

/-- `decode` accepts exactly the encodings of messages, in one way only; what it accepts it takes off
the buffer and hands over, and what it does not accept it leaves alone. -/
structure DecodesExactly (buf : Buffer) (out : RpcMessage) : Prop where
  accepts : (decode buf out).1 = true ↔ ∃ msg rest, Begins buf msg rest
  unique : ∀ msg rest msg' rest', Begins buf msg rest → Begins buf msg' rest' →
    msg = msg' ∧ rest = rest'
  takes : ∀ msg rest, Begins buf msg rest →
    (decode buf out).2.2 = msg ∧ (decode buf out).2.1.readable = rest
  leaves : (decode buf out).1 = false → (decode buf out).2 = (buf, out)

/-- The message has a frame, but one that is too large for a `Buffer`. -/
def Oversized (msg : RpcMessage) : Prop :=
  Encodable msg ∧ Buffer.kMaxCapacity < Buffer.kCheapPrepend + encodedSize msg

/-! ## Frames that fit -/

theorem fits_iff (msg : RpcMessage) :
    Buffer.new.Fits (encodedSize msg)
      ↔ Buffer.kCheapPrepend + encodedSize msg ≤ Buffer.kMaxCapacity := by
  have hcap : Buffer.kCheapPrepend + Buffer.kInitialSize ≤ Buffer.kMaxCapacity := by decide
  have hsize := Buffer.new_size
  constructor
  · intro hfits
    by_cases hneed : Buffer.new.size - Buffer.new.writerIndex + Buffer.new.readerIndex
        < encodedSize msg + Buffer.kCheapPrepend
    · exact hfits hneed
    · have hindex : Buffer.new.writerIndex = Buffer.kCheapPrepend
          ∧ Buffer.new.readerIndex = Buffer.kCheapPrepend := ⟨rfl, rfl⟩
      omega
  · exact fun hle => Buffer.Fits.of_le hle

/-- `encode` stays inside its buffer exactly when the frame fits. -/
theorem encode_inv_iff {msg : RpcMessage} (henc : Encodable msg) :
    (encode msg).Inv ↔ Buffer.kCheapPrepend + encodedSize msg ≤ Buffer.kMaxCapacity := by
  rw [← fits_iff]
  constructor
  · intro hinv
    by_contra hfits
    have hsmall : encodedSize msg < 2 ^ 61 := by
      have hm := henc.method_lt
      have hp := henc.payload_lt
      rw [encodedSize]
      omega
    have hlen : (fields msg).flatten.length = encodedSize msg := by rw [fields_flatten, frame_length]
    rw [encode_eq_foldl] at hinv
    exact Buffer.encoded_overrun hsmall hfits hlen hinv
  · exact fun hfits => (encode_readable hfits).1

/-- In terms of the grammar: the front of the buffer is a frame that is not too large. -/
theorem begins_iff {buf : Buffer} {msg : RpcMessage} {rest : Bytes} :
    Begins buf msg rest
      ↔ readFrame buf.readable = some (msg, rest)
        ∧ Buffer.kCheapPrepend + encodedSize msg ≤ Buffer.kMaxCapacity := by
  rw [readFrame_eq_some]
  constructor
  · rintro ⟨henc, hinside, hread⟩
    have hle := (encode_inv_iff henc).mp hinside
    rw [(encode_readable ((fits_iff msg).mpr hle)).2] at hread
    exact ⟨⟨henc, hread⟩, hle⟩
  · rintro ⟨⟨henc, hread⟩, hle⟩
    have hspec := encode_readable ((fits_iff msg).mpr hle)
    exact ⟨henc, hspec.1, by rw [hspec.2, hread]⟩

/-- Where `decode` reads a message that is not too large, or none, it is exact. -/
theorem decodesExactly_of_fits {buf : Buffer} (hinv : buf.Inv) (out : RpcMessage)
    (hfits : ∀ msg rest, readFrame buf.readable = some (msg, rest) →
      Buffer.kCheapPrepend + encodedSize msg ≤ Buffer.kMaxCapacity) : DecodesExactly buf out := by
  have hdecode := decode_readFrame hinv out
  have hread : ∀ {msg rest}, Begins buf msg rest → readFrame buf.readable = some (msg, rest) :=
    fun h => (begins_iff.mp h).1
  constructor
  · constructor
    · intro htrue
      cases hframe : readFrame buf.readable with
      | none =>
          rw [hdecode, hframe] at htrue
          cases htrue
      | some r => exact ⟨r.1, r.2, begins_iff.mpr ⟨hframe, hfits r.1 r.2 hframe⟩⟩
    · rintro ⟨msg, rest, h⟩
      rw [hdecode, hread h]
  · intro msg rest msg' rest' h h'
    have heq := (hread h).symm.trans (hread h')
    exact Prod.mk.inj (Option.some.inj heq)
  · intro msg rest h
    obtain ⟨-, hframe⟩ := readFrame_eq_some.mp (hread h)
    rw [hdecode, hread h]
    refine ⟨rfl, ?_⟩
    show (buf.retrieve (frame msg).length).readable = rest
    rw [Buffer.retrieve_readable hinv, hframe, List.drop_left]
  · intro hfalse
    cases hframe : readFrame buf.readable with
    | none => rw [hdecode, hframe]
    | some r =>
        rw [hdecode, hframe] at hfalse
        cases hfalse

/-- A frame that is too large is accepted all the same. -/
theorem not_decodesExactly {buf : Buffer} (hinv : buf.Inv) (out : RpcMessage) {msg : RpcMessage}
    {rest : Bytes} (hover : Oversized msg) (hread : buf.readable = frame msg ++ rest) :
    (decode buf out).1 = true ∧ ¬DecodesExactly buf out := by
  have hframe := readFrame_eq_some.mpr ⟨hover.1, hread⟩
  have htrue : (decode buf out).1 = true := by rw [decode_readFrame hinv, hframe]
  refine ⟨htrue, fun h => ?_⟩
  obtain ⟨msg', rest', hbegins⟩ := h.accepts.mp htrue
  obtain ⟨hframe', hle⟩ := begins_iff.mp hbegins
  obtain ⟨rfl, rfl⟩ := Prod.mk.inj (Option.some.inj (hframe.symm.trans hframe'))
  exact absurd hle (Nat.not_le.mpr hover.2)

/-- A `Buffer` of sufficient initial size can hold such a frame. -/
theorem accepts_oversized {msg : RpcMessage} (hover : Oversized msg) (out : RpcMessage) :
    let buf := (Buffer.ofSize (encodedSize msg)).append (frame msg)
    (decode buf out).1 = true ∧ ¬DecodesExactly buf out := by
  have hmax : Buffer.kCheapPrepend + encodedSize msg ≤ Buffer.kVectorMax := by
    have hm := hover.1.method_lt
    have hp := hover.1.payload_lt
    have hpre : Buffer.kCheapPrepend = 8 := rfl
    have hvector : (2 : Nat) ^ 62 ≤ Buffer.kVectorMax := by decide
    rw [encodedSize]
    omega
  have hinv := Buffer.ofSize_inv hmax
  have hfits : (Buffer.ofSize (encodedSize msg)).Fits (frame msg).length := by
    apply Buffer.Fits.of_room hinv
    rw [Buffer.ofSize_size hmax, frame_length]
    exact le_refl _
  have hread : ((Buffer.ofSize (encodedSize msg)).append (frame msg)).readable = frame msg ++ [] := by
    rw [Buffer.append_readable hinv hfits, Buffer.ofSize_readable, List.nil_append, List.append_nil]
  exact not_decodesExactly (Buffer.append_inv hinv hfits) out hover hread

/-! ## The contract -/

/-- **The grammar of `decode`.** On every buffer and for every `*out`: `decode` accepts exactly the
encodings of messages, and fails without a trace, if and only if the buffer does not begin with the
frame of a message that `encode` has no room for. -/
theorem decodesExactly_iff {buf : Buffer} (hinv : buf.Inv) (out : RpcMessage) :
    DecodesExactly buf out
      ↔ ∀ msg rest, Encodable msg → buf.readable = frame msg ++ rest →
        Buffer.kCheapPrepend + encodedSize msg ≤ Buffer.kMaxCapacity := by
  constructor
  · intro h msg rest henc hread
    by_contra hlarge
    exact (not_decodesExactly hinv out ⟨henc, Nat.not_le.mp hlarge⟩ hread).2 h
  · intro h
    apply decodesExactly_of_fits hinv out
    intro msg rest hframe
    obtain ⟨henc, hread⟩ := readFrame_eq_some.mp hframe
    exact h msg rest henc hread

/-- A whole frame and the beginning of another one. -/
theorem decodesExactly_iff_sample :
    DecodesExactly (Buffer.new.append (frame { requestId := 1, method := [97] } ++ [0x50])) {} := by
  have hfits : Buffer.new.Fits (frame { requestId := 1, method := [97] } ++ [0x50]).length := by
    decide +kernel
  refine (decodesExactly_iff (Buffer.append_inv Buffer.new_inv hfits) {}).mpr ?_
  intro msg rest _ hread
  rw [Buffer.append_readable Buffer.new_inv hfits, Buffer.new_readable, List.nil_append] at hread
  -- a frame at the front of these bytes is not longer than they are
  have hlength := congrArg List.length hread
  rw [List.length_append, List.length_append, frame_length, frame_length] at hlength
  have hsize : encodedSize { requestId := 1, method := [97] } = 21 := rfl
  have hcap : Buffer.kCheapPrepend + 22 ≤ Buffer.kMaxCapacity := by decide
  rw [hsize, List.length_singleton] at hlength
  omega

/-- A message with `n` zero bytes and nothing else. -/
def zeros (n : Nat) : RpcMessage where
  payload := List.replicate n 0

theorem oversized_zeros {n : Nat} (hn : n < 2 ^ 32) (hcap : Buffer.kMaxCapacity ≤ n) :
    Oversized (zeros n) := by
  have hlen : (zeros n).payload.length = n := List.length_replicate
  have hmethod : (zeros n).method.length = 0 := rfl
  refine ⟨⟨by rw [hmethod]; decide, by rwa [hlen]⟩, ?_⟩
  rw [encodedSize, hlen]
  omega

/-- A payload that alone fills a `Buffer`: `encode` has no room for it, and `decode` accepts it. -/
theorem zeros_accepted :
    let buf := (Buffer.ofSize (encodedSize (zeros Buffer.kMaxCapacity))).append
      (frame (zeros Buffer.kMaxCapacity))
    (decode buf {}).1 = true ∧ ¬DecodesExactly buf {} :=
  accepts_oversized (oversized_zeros (by decide) (le_refl _)) {}

end RpcCodec

end LightNet.Rpc
