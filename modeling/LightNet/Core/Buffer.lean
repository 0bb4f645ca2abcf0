/-
# LightNet.Core.Buffer — the growable read/write buffer of `core/buffer.cpp`.

`Buffer` is one `std::vector<char>` and two indices; the readable bytes lie between them and
`kCheapPrepend` bytes in front are kept free.  Every function below is the one of the source, with
`size_t` arithmetic modulo `2 ^ 64`: the subtractions in `readable_bytes` and `writable_bytes`, and
the sums compared in `make_space`, wrap as they do in the code.

The vector never changes size except in `resize`: a `memcpy` that runs past the end writes what fits
(the rest is outside the object), while `has_written` still advances the index.  Nothing here assumes
that the indices are in order; `Buffer.Inv` says when they are, and `Buffer.Fits` names the requests
that `make_space` can really serve.
-/
import LightNet.Foundation.LittleEndian
import LightNet.Foundation.Run

namespace LightNet.Core

open LightNet.Foundation

/-! ## `size_t` arithmetic -/

/-- `a + b` in `size_t`. -/
def sizeAdd (a b : Nat) : Nat := (a + b) % 2 ^ 64

/-- `a - b` in `size_t`. -/
def sizeSub (a b : Nat) : Nat := (a + (2 ^ 64 - b % 2 ^ 64)) % 2 ^ 64

theorem sizeAdd_eq {a b : Nat} (h : a + b < 2 ^ 64) : sizeAdd a b = a + b := Nat.mod_eq_of_lt h

theorem sizeSub_eq {a b : Nat} (hba : b ≤ a) (ha : a < 2 ^ 64) : sizeSub a b = a - b := by
  unfold sizeSub
  rw [Nat.mod_eq_of_lt (show b < 2 ^ 64 by omega)]
  omega

/-- `data` written over `mem` from offset `pos`; the block does not grow. -/
def overwrite (mem : Bytes) (pos : Nat) (data : Bytes) : Bytes :=
  (mem.take pos ++ data ++ mem.drop (pos + data.length)).take mem.length

@[simp] theorem overwrite_length (mem : Bytes) (pos : Nat) (data : Bytes) :
    (overwrite mem pos data).length = mem.length := by
  simp only [overwrite, List.length_take, List.length_append, List.length_drop]
  omega

theorem overwrite_eq {mem data : Bytes} {pos : Nat} (h : pos + data.length ≤ mem.length) :
    overwrite mem pos data = mem.take pos ++ data ++ mem.drop (pos + data.length) := by
  apply List.take_of_length_le
  simp only [List.length_append, List.length_take, List.length_drop]
  omega

/-- Reading from `lo` up to the end of what was written gives the old bytes, then the new ones. -/
theorem overwrite_window {mem data : Bytes} {lo pos : Nat} (hlo : lo ≤ pos)
    (h : pos + data.length ≤ mem.length) :
    ((overwrite mem pos data).drop lo).take (pos - lo + data.length)
      = (mem.drop lo).take (pos - lo) ++ data := by
  have hfront : ((mem.drop lo).take (pos - lo)).length = pos - lo := by
    rw [List.length_take, List.length_drop]
    omega
  rw [overwrite_eq h, List.append_assoc,
    List.drop_append_of_le_length (by rw [List.length_take]; omega), List.drop_take,
    ← List.append_assoc, List.take_append_of_le_length, List.take_of_length_le]
  · rw [List.length_append, hfront]
  · rw [List.length_append, hfront]

/-! ## The class -/

/-- `lightnet::Buffer`. -/
structure Buffer where
  buffer : Bytes
  readerIndex : Nat
  writerIndex : Nat
  deriving DecidableEq

namespace Buffer

/-- The content a new buffer has room for. -/
def kInitialSize : Nat := 1024
/-- The bytes that stay free in front. -/
def kCheapPrepend : Nat := 8
/-- `make_space` never makes the vector longer than this. -/
def kMaxCapacity : Nat := 64 * 1024 * 1024

/-- `Buffer(initial_size)`. -/
def ofSize (initialSize : Nat) : Buffer where
  buffer := List.replicate (sizeAdd kCheapPrepend initialSize) 0
  readerIndex := kCheapPrepend
  writerIndex := kCheapPrepend

/-- `Buffer()`. -/
def new : Buffer := ofSize kInitialSize

/-- `buffer_.size()`. -/
def size (b : Buffer) : Nat := b.buffer.length

/-- `readable_bytes()`.  The subtraction is one of `size_t`. -/
def readableBytes (b : Buffer) : Nat := sizeSub b.writerIndex b.readerIndex
/-- `writable_bytes()`. -/
def writableBytes (b : Buffer) : Nat := sizeSub b.size b.writerIndex
/-- `prependable_bytes()`. -/
def prependableBytes (b : Buffer) : Nat := b.readerIndex

/-- The `len` bytes that start at `peek()`. -/
def peek (b : Buffer) (len : Nat) : Bytes := (b.buffer.drop b.readerIndex).take len

/-- The bytes between `peek()` and `begin_write()`. -/
def readable (b : Buffer) : Bytes := b.peek (b.writerIndex - b.readerIndex)

/-! ## Taking -/

/-- `retrieve_all()`: both indices go back to the front. -/
def retrieveAll (b : Buffer) : Buffer :=
  { b with readerIndex := kCheapPrepend, writerIndex := kCheapPrepend }

/-- `retrieve(len)`. -/
def retrieve (b : Buffer) (len : Nat) : Buffer :=
  if len < b.readableBytes then { b with readerIndex := sizeAdd b.readerIndex len }
  else b.retrieveAll

/-- `retrieve_until(peek() + offset)`. -/
def retrieveUntil (b : Buffer) (offset : Nat) : Buffer := b.retrieve offset

/-! ## Putting -/

/-- `buffer_.resize(n)`. -/
def resize (b : Buffer) (n : Nat) : Buffer :=
  { b with buffer := b.buffer.take n ++ List.replicate (n - b.size) 0 }

/-- `make_space(len)`: the vector grows, or the content moves to its front. -/
def makeSpace (b : Buffer) (len : Nat) : Buffer :=
  if sizeAdd b.writableBytes b.prependableBytes < sizeAdd len kCheapPrepend then
    -- the cap may cut off a part of what was asked for
    let newSize := sizeAdd b.writerIndex len
    b.resize (if newSize > kMaxCapacity then kMaxCapacity else newSize)
  else
    -- the unread bytes slide to the front
    let readable := b.readableBytes
    { buffer := overwrite b.buffer kCheapPrepend (b.peek readable)
      readerIndex := kCheapPrepend
      writerIndex := sizeAdd kCheapPrepend readable }

/-- `ensure_writable(len)`. -/
def ensureWritable (b : Buffer) (len : Nat) : Buffer :=
  if b.writableBytes < len then b.makeSpace len else b

/-- `has_written(len)`, which trusts its caller. -/
def hasWritten (b : Buffer) (len : Nat) : Buffer :=
  { b with writerIndex := sizeAdd b.writerIndex len }

/-- `memcpy(begin_write(), data, len)`. -/
def memcpy (b : Buffer) (data : Bytes) : Buffer :=
  { b with buffer := overwrite b.buffer b.writerIndex data }

/-- `append(data, len)`. -/
def append (b : Buffer) (data : Bytes) : Buffer :=
  ((b.ensureWritable data.length).memcpy data).hasWritten data.length

/-- `retrieve_as_string(len)`: no more than is readable. -/
def retrieveAsString (b : Buffer) (len : Nat) : Bytes × Buffer :=
  let len := min len b.readableBytes
  (b.peek len, b.retrieve len)

/-! ## Reading -/

/-- `sizeof extrabuf`. -/
def kExtraSize : Nat := 65536

/-- What the two `iovec`s of `read_fd` can take in one `readv`. -/
def readvCapacity (b : Buffer) : Nat :=
  if b.writableBytes < kExtraSize then b.writableBytes + kExtraSize else b.writableBytes

/-- `read_fd`.  `incoming` is what the kernel hands over: `none` when `readv` fails, otherwise the
bytes it delivers, at most as many as the `iovec`s hold. -/
def readFd (b : Buffer) (incoming : Option Bytes) : Int × Buffer :=
  match incoming with
  | none => (-1, b)
  | some bytes =>
      let writable := b.writableBytes
      let data := bytes.take b.readvCapacity
      let filled := b.memcpy (data.take writable)
      if data.length ≤ writable then (data.length, filled.hasWritten data.length)
      -- the rest has gone to `extrabuf`
      else (data.length, { filled with writerIndex := b.size }.append (data.drop writable))

/-- The offset of the first CRLF of a byte string. -/
def searchCrlf : Bytes → Option Nat
  | [] => none
  | c :: rest =>
      if c = 13 ∧ rest.head? = some 10 then some 0 else (searchCrlf rest).map (· + 1)

/-- `find_crlf()`, as an offset from `peek()`. -/
def findCrlf (b : Buffer) : Option Nat := searchCrlf b.readable

/-! ## When the indices are in order -/

/-- `PTRDIFF_MAX`, the largest size a `std::vector<char>` can have. -/
def kVectorMax : Nat := 2 ^ 63 - 1

/-- The class invariant: the indices are in order and inside the vector. -/
structure Inv (b : Buffer) : Prop where
  prepend_le : kCheapPrepend ≤ b.readerIndex
  reader_le : b.readerIndex ≤ b.writerIndex
  writer_le : b.writerIndex ≤ b.size
  size_le : b.size ≤ kVectorMax

/-- A request for `len` bytes that `make_space` can serve: either the free bytes in front of and
behind the data are enough, or the grown vector stays within `kMaxCapacity`. -/
def Fits (b : Buffer) (len : Nat) : Prop :=
  b.size - b.writerIndex + b.readerIndex < len + kCheapPrepend → b.writerIndex + len ≤ kMaxCapacity

instance (b : Buffer) (len : Nat) : Decidable (b.Fits len) :=
  inferInstanceAs (Decidable (_ → _))

end Buffer

end LightNet.Core
