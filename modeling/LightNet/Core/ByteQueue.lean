/-
# LightNet.Core.ByteQueue — the buffer refines a queue of bytes.

`BufferQueue` says what one operation does to the readable bytes when the request fits.  Here a
whole run of calls is compared with an abstract FIFO of bytes, one abstract call for each call, and
the side condition is read off the code: whenever `make_space` takes its growing branch, the size it
asks for is within `kMaxCapacity`.  Nothing is said about `ensure_writable(len)` for a `len` so large
that `len + kCheapPrepend` wraps: it slides the data to the front, which nobody can observe.
-/
import LightNet.Core.BufferRun
import LightNet.Foundation.Fifo

namespace LightNet.Core.Buffer

open LightNet.Foundation

/-- A byte string in memory: no object is larger than `PTRDIFF_MAX`. -/
def Chunk : Type := { bytes : Bytes // bytes.length ≤ kVectorMax }

/-- One call on a `Buffer`, with the bytes or the length it is given.  `offset` is what
`retrieve_until(end)` computes as `end - peek()`. -/
inductive Call where
  | append (data : Chunk)
  | retrieve (len : Nat)
  | retrieveUntil (offset : Nat)
  | retrieveAsString (len : Nat)
  | retrieveAll
  | ensureWritable (len : Nat)
  | readFd (incoming : Option Bytes)

/-- The buffer after a call. -/
def call (b : Buffer) : Call → Buffer
  | .append data => b.append data.val
  | .retrieve len => b.retrieve len
  | .retrieveUntil offset => b.retrieveUntil offset
  | .retrieveAsString len => (b.retrieveAsString len).2
  | .retrieveAll => b.retrieveAll
  | .ensureWritable len => b.ensureWritable len
  | .readFd incoming => (b.readFd incoming).2

/-- The bytes a call returns. -/
def returned (b : Buffer) : Call → Option Bytes
  | .retrieveAsString len => some (b.retrieveAsString len).1
  | _ => none

/-- The call of the abstract queue. -/
def Call.abstract : Call → Fifo.Op UInt8
  | .append data => .push data.val
  | .retrieve len => .drop len
  | .retrieveUntil offset => .drop offset
  | .retrieveAsString len => .take len
  | .retrieveAll => .clear
  | .ensureWritable _ => .skip
  | .readFd none => .skip
  | .readFd (some bytes) => .push bytes

/-! ## The side condition, as the code has it -/

/-- If `ensure_writable(len)` grows the vector, it asks for at most `kMaxCapacity` bytes. -/
def GrowthFits (b : Buffer) (len : Nat) : Prop :=
  b.writableBytes < len →
    sizeAdd b.writableBytes b.prependableBytes < sizeAdd len kCheapPrepend →
      b.writerIndex + len ≤ kMaxCapacity

/-- No growth inside the call asks for more than `kMaxCapacity` bytes, and `read_fd` is given no
more than its `iovec`s hold. -/
def CallFits (b : Buffer) : Call → Prop
  | .append data => b.GrowthFits data.val.length
  | .ensureWritable len => b.GrowthFits len
  | .readFd (some bytes) =>
      bytes.length ≤ b.readvCapacity
        ∧ (b.writableBytes < bytes.length →
            { b with writerIndex := b.size }.GrowthFits (bytes.length - b.writableBytes))
  | _ => True

theorem GrowthFits.of_le {b : Buffer} {len : Nat} (hle : b.writerIndex + len ≤ kMaxCapacity) :
    b.GrowthFits len := fun _ _ => hle

/-- Where `len + kCheapPrepend` does not wrap, the condition of the code is `Fits`. -/
theorem GrowthFits.fits {b : Buffer} (h : b.Inv) {len : Nat} (hlen : len ≤ kVectorMax)
    (hf : b.GrowthFits len) : b.Fits len := by
  have hp := h.prepend_le
  have hr := h.reader_le
  have hw := h.writer_le
  have hs := h.size_lt
  have hmax := kVectorMax_lt
  have hprepend : kCheapPrepend = 8 := rfl
  intro hneed
  apply hf
  · rw [h.writableBytes_eq]
    omega
  · rw [h.writableBytes_eq, prependableBytes, sizeAdd_eq (by omega), sizeAdd_eq (by omega)]
    exact hneed

/-- `ensure_writable` changes nothing observable, whatever it is asked for. -/
theorem ensureWritable_unobserved {b : Buffer} (h : b.Inv) {len : Nat} (hf : b.GrowthFits len) :
    (b.ensureWritable len).Inv ∧ (b.ensureWritable len).readable = b.readable := by
  have hp := h.prepend_le
  unfold ensureWritable
  split
  · rename_i hshort
    unfold makeSpace
    split
    · -- the vector grows to what was asked for
      rename_i hgrow
      have hcap := hf hshort hgrow
      have hmax : kMaxCapacity < 2 ^ 63 := by decide
      have hadd : sizeAdd b.writerIndex len = b.writerIndex + len := sizeAdd_eq (by omega)
      rw [h.writableBytes_eq] at hshort
      simp only [hadd, if_neg (Nat.not_lt.mpr hcap)]
      have hroom := @resize_room b h len (by omega) hcap
      exact ⟨hroom.inv, hroom.readable_eq⟩
    · -- the data slides to the front, with or without enough room behind it
      have hroom := @slide_room b h 0 (by omega)
      exact ⟨hroom.inv, hroom.readable_eq⟩
  · exact ⟨h, rfl⟩

/-! ## One call -/

/-- What `read_fd` is handed is what it delivers. -/
theorem readFits_of_callFits {b : Buffer} (h : b.Inv) {bytes : Bytes}
    (hf : b.CallFits (.readFd (some bytes))) :
    b.delivered bytes = bytes ∧ b.ReadFits (some bytes) := by
  obtain ⟨hcap, hspill⟩ := hf
  have hall : b.delivered bytes = bytes := List.take_of_length_le hcap
  refine ⟨hall, ?_⟩
  intro hgt
  rw [hall] at hgt ⊢
  have hfull : Inv { b with writerIndex := b.size } :=
    ⟨h.prepend_le, le_trans h.reader_le h.writer_le, le_refl _, h.size_le⟩
  apply GrowthFits.fits hfull _ (hspill hgt)
  -- what spills is at most `extrabuf`
  have hextra : b.readvCapacity ≤ b.writableBytes + kExtraSize := by
    unfold readvCapacity
    split <;> omega
  have hsmall : kExtraSize ≤ kVectorMax := by decide
  omega

theorem call_inv {b : Buffer} {c : Call} (h : b.Inv) (hf : b.CallFits c) : (b.call c).Inv := by
  cases c with
  | append data => exact append_inv h (hf.fits h data.property)
  | retrieve len => exact retrieve_inv h len
  | retrieveUntil offset => exact retrieve_inv h offset
  | retrieveAsString len =>
      show (b.retrieveAsString len).2.Inv
      rw [retrieveAsString_snd]
      exact retrieve_inv h len
  | retrieveAll => exact retrieveAll_inv h
  | ensureWritable len => exact (ensureWritable_unobserved h hf).1
  | readFd incoming =>
      cases incoming with
      | none => exact h
      | some bytes => exact (readFd_some h (readFits_of_callFits h hf).2).1

theorem call_readable {b : Buffer} {c : Call} (h : b.Inv) (hf : b.CallFits c) :
    (b.call c).readable = Fifo.step b.readable c.abstract := by
  cases c with
  | append data => exact append_readable h (hf.fits h data.property)
  | retrieve len =>
      show _ = b.readable.drop (min len b.readable.length)
      rw [Fifo.drop_min_length]
      exact retrieve_readable h len
  | retrieveUntil offset =>
      show _ = b.readable.drop (min offset b.readable.length)
      rw [Fifo.drop_min_length]
      exact retrieve_readable h offset
  | retrieveAsString len =>
      show (b.retrieveAsString len).2.readable = b.readable.drop (min len b.readable.length)
      rw [retrieveAsString_snd, Fifo.drop_min_length]
      exact retrieve_readable h len
  | retrieveAll => exact retrieveAll_readable b
  | ensureWritable len => exact (ensureWritable_unobserved h hf).2
  | readFd incoming =>
      cases incoming with
      | none => rfl
      | some bytes =>
          obtain ⟨hall, hfits⟩ := readFits_of_callFits h hf
          have hread := (readFd_some h hfits).2
          rw [hall] at hread
          exact hread

theorem returned_eq {b : Buffer} (h : b.Inv) (c : Call) :
    b.returned c = Fifo.out b.readable c.abstract := by
  cases c with
  | retrieveAsString len =>
      show some (b.retrieveAsString len).1 = some (b.readable.take (min len b.readable.length))
      rw [retrieveAsString_fst h, Fifo.take_min_length]
  | readFd incoming => cases incoming <;> rfl
  | append data => rfl
  | retrieve len => rfl
  | retrieveUntil offset => rfl
  | retrieveAll => rfl
  | ensureWritable len => rfl

/-! ## Runs -/

/-- **The buffer is a byte queue.** From a buffer of any initial size, along every run of calls in
which no growth asks for more than `kMaxCapacity` bytes, the bytes from `peek()` are those of an
abstract FIFO that has served the same calls, `readable_bytes()` is its length, and the calls have
returned what the FIFO returns. -/
theorem refines_fifo {initialSize : Nat} (hsize : kCheapPrepend + initialSize ≤ kVectorMax)
    (calls : List Call) (h : Admissible call CallFits (ofSize initialSize) calls) :
    let b := run call (ofSize initialSize) calls
    let queue := run Fifo.step [] (calls.map Call.abstract)
    b.peek b.readableBytes = queue ∧ b.readableBytes = queue.length
      ∧ outputs call returned (ofSize initialSize) calls
          = outputs Fifo.step Fifo.out [] (calls.map Call.abstract) := by
  have hinit := ofSize_inv hsize
  have hinv : (run call (ofSize initialSize) calls).Inv :=
    run_invariant (fun _ _ => call_inv) hinit h
  obtain ⟨hqueue, houts⟩ := run_refines (fun b c => @call_inv b c) (fun b c => @call_readable b c)
    (fun _ c hb _ => returned_eq hb c) hinit h
  rw [ofSize_readable] at hqueue houts
  refine ⟨?_, ?_, houts⟩
  · rw [hinv.peek_readableBytes]
    exact hqueue
  · rw [hinv.readableBytes_eq_length, hqueue]

/-- A small buffer is filled, half drained, slid, grown and filled past its end by `read_fd`. -/
theorem refines_fifo_sample :
    let calls : List Call :=
      [.append ⟨[1, 2, 3, 4], by decide⟩, .retrieve 3, .ensureWritable 3, .readFd (some [5, 6, 7, 8]),
        .retrieveAsString 2]
    Admissible call CallFits (ofSize 4) calls
      ∧ (run call (ofSize 4) calls).readableBytes
          = (run Fifo.step [] (calls.map Call.abstract)).length := by
  intro calls
  have hok : Admissible call CallFits (ofSize 4) calls := by
    refine ⟨GrowthFits.of_le (by decide), trivial, GrowthFits.of_le (by decide),
      ⟨by decide, fun _ => GrowthFits.of_le (by decide)⟩, trivial, trivial⟩
  exact ⟨hok, (refines_fifo (by decide) calls hok).2.1⟩

end LightNet.Core.Buffer
