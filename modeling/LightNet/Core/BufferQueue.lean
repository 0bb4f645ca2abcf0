/-
# LightNet.Core.BufferQueue — while requests fit, the buffer is a byte queue.

One specification lemma per operation, under the invariant and, where the operation may grow the
vector, under `Fits`: the indices stay in order and the readable bytes change as those of a FIFO.
The rest of the development uses these lemmas and never unfolds an operation again.
-/
import LightNet.Core.Buffer
import Mathlib.Tactic.NormNum

namespace LightNet.Core.Buffer

open LightNet.Foundation

theorem kVectorMax_lt : kVectorMax < 2 ^ 63 := by decide

theorem kMaxCapacity_le : kMaxCapacity ≤ kVectorMax := by decide

theorem ofSize_size {n : Nat} (h : kCheapPrepend + n ≤ kVectorMax) :
    (ofSize n).size = kCheapPrepend + n := by
  have hmax := kVectorMax_lt
  exact List.length_replicate.trans (sizeAdd_eq (by omega))

theorem ofSize_inv {n : Nat} (h : kCheapPrepend + n ≤ kVectorMax) : (ofSize n).Inv := by
  refine ⟨le_refl _, le_refl _, ?_, ?_⟩
  · rw [ofSize_size h]
    exact Nat.le_add_right _ _
  · rw [ofSize_size h]
    exact h

@[simp] theorem ofSize_readable (n : Nat) : (ofSize n).readable = [] := by
  simp [readable, peek, ofSize]

theorem new_size : new.size = kCheapPrepend + kInitialSize := ofSize_size (by decide)

theorem new_inv : new.Inv := ofSize_inv (by decide)

@[simp] theorem new_readable : new.readable = [] := ofSize_readable _

/-! ## The accessors -/

namespace Inv

variable {b : Buffer} (h : b.Inv)
include h

theorem size_lt : b.size < 2 ^ 63 := lt_of_le_of_lt h.size_le kVectorMax_lt

theorem readableBytes_eq : b.readableBytes = b.writerIndex - b.readerIndex := by
  have := h.size_lt
  have := h.writer_le
  exact sizeSub_eq h.reader_le (by omega)

theorem writableBytes_eq : b.writableBytes = b.size - b.writerIndex := by
  have := h.size_lt
  exact sizeSub_eq h.writer_le (by omega)

theorem readable_length : b.readable.length = b.writerIndex - b.readerIndex := by
  have := h.reader_le
  have hw : b.writerIndex ≤ b.buffer.length := h.writer_le
  simp only [readable, peek, List.length_take, List.length_drop]
  omega

theorem readableBytes_eq_length : b.readableBytes = b.readable.length := by
  rw [h.readableBytes_eq, h.readable_length]

/-- `peek()` reads the front of the readable bytes. -/
theorem peek_eq {len : Nat} (hlen : len ≤ b.readable.length) : b.peek len = b.readable.take len := by
  rw [h.readable_length] at hlen
  rw [readable, peek, peek, List.take_take, Nat.min_eq_left hlen]

theorem peek_readableBytes : b.peek b.readableBytes = b.readable := by
  rw [h.peek_eq (le_of_eq h.readableBytes_eq_length), h.readableBytes_eq_length, List.take_length]

end Inv

/-! ## Consuming -/

theorem retrieveAll_inv {b : Buffer} (h : b.Inv) : b.retrieveAll.Inv := by
  have := h.prepend_le
  have := h.reader_le
  have := h.writer_le
  refine ⟨le_refl _, le_refl _, ?_, h.size_le⟩
  show kCheapPrepend ≤ b.size
  omega

@[simp] theorem retrieveAll_readable (b : Buffer) : b.retrieveAll.readable = [] := by
  simp [readable, peek, retrieveAll]

theorem retrieve_inv {b : Buffer} (h : b.Inv) (len : Nat) : (b.retrieve len).Inv := by
  unfold retrieve
  split
  · rename_i hlen
    rw [h.readableBytes_eq] at hlen
    have := h.prepend_le
    have := h.writer_le
    have := h.size_lt
    have hadd : sizeAdd b.readerIndex len = b.readerIndex + len := sizeAdd_eq (by omega)
    rw [hadd]
    refine ⟨?_, ?_, h.writer_le, h.size_le⟩
    · show kCheapPrepend ≤ b.readerIndex + len
      omega
    · show b.readerIndex + len ≤ b.writerIndex
      omega
  · exact retrieveAll_inv h

theorem retrieve_readable {b : Buffer} (h : b.Inv) (len : Nat) :
    (b.retrieve len).readable = b.readable.drop len := by
  unfold retrieve
  split
  · rename_i hlen
    rw [h.readableBytes_eq] at hlen
    have := h.writer_le
    have := h.size_lt
    have hadd : sizeAdd b.readerIndex len = b.readerIndex + len := sizeAdd_eq (by omega)
    have hrest : b.writerIndex - (b.readerIndex + len) = b.writerIndex - b.readerIndex - len := by omega
    simp only [readable, peek, hadd, hrest, List.drop_take, List.drop_drop]
  · rename_i hlen
    rw [h.readableBytes_eq_length] at hlen
    rw [retrieveAll_readable, List.drop_eq_nil_of_le (by omega)]

theorem retrieve_writerIndex_le {b : Buffer} (h : b.Inv) (len : Nat) :
    (b.retrieve len).writerIndex ≤ b.writerIndex := by
  unfold retrieve
  split
  · exact le_refl _
  · exact le_trans h.prepend_le h.reader_le

theorem retrieveAsString_fst {b : Buffer} (h : b.Inv) (len : Nat) :
    (b.retrieveAsString len).1 = b.readable.take len := by
  have hmin : min len b.readableBytes ≤ b.readable.length := by
    rw [h.readableBytes_eq_length]
    exact Nat.min_le_right _ _
  rw [retrieveAsString, h.peek_eq hmin, h.readableBytes_eq_length, ← List.take_take,
    List.take_length]

/-- Taking at most what is there or taking `len` leaves the same bytes. -/
theorem retrieveAsString_snd (b : Buffer) (len : Nat) :
    (b.retrieveAsString len).2 = b.retrieve len := by
  rcases Nat.le_total len b.readableBytes with hle | hle
  · simp [retrieveAsString, Nat.min_eq_left hle]
  · simp [retrieveAsString, Nat.min_eq_right hle, retrieve, Nat.not_lt.mpr hle]

/-! ## Making room -/

theorem Fits.of_room {b : Buffer} (h : b.Inv) {len : Nat} (hroom : b.writerIndex + len ≤ b.size) :
    b.Fits len := by
  intro hlt
  have := h.prepend_le
  omega

theorem Fits.of_le {b : Buffer} {len : Nat} (hle : b.writerIndex + len ≤ kMaxCapacity) :
    b.Fits len := fun _ => hle

/-- What `ensure_writable` guarantees when the request fits: room for `len` bytes, and nothing
observable has changed. -/
structure Room (b b' : Buffer) (len : Nat) : Prop where
  inv : b'.Inv
  room : b'.writerIndex + len ≤ b'.size
  readable_eq : b'.readable = b.readable
  writer_le : b'.writerIndex ≤ b.writerIndex

/-- The growing branch of `make_space`. -/
theorem resize_room {b : Buffer} (h : b.Inv) {len : Nat} (hgrow : b.size ≤ b.writerIndex + len)
    (hcap : b.writerIndex + len ≤ kMaxCapacity) : Room b (b.resize (b.writerIndex + len)) len := by
  have hbuf : (b.resize (b.writerIndex + len)).buffer
      = b.buffer ++ List.replicate (b.writerIndex + len - b.size) 0 := by
    simp only [resize]
    rw [List.take_of_length_le hgrow]
  have hsize : (b.resize (b.writerIndex + len)).size = b.writerIndex + len := by
    simp only [size, hbuf, List.length_append, List.length_replicate]
    have : b.size = b.buffer.length := rfl
    omega
  have hw : b.writerIndex ≤ b.buffer.length := h.writer_le
  refine ⟨⟨h.prepend_le, h.reader_le, ?_, ?_⟩, ?_, ?_, le_refl _⟩
  · rw [hsize]
    exact Nat.le_add_right _ _
  · rw [hsize]
    exact le_trans hcap kMaxCapacity_le
  · rw [hsize]
    exact le_refl _
  · have hr := h.reader_le
    simp only [readable, peek, hbuf]
    show List.take (b.writerIndex - b.readerIndex) (List.drop b.readerIndex _) = _
    rw [List.drop_append_of_le_length (by omega), List.take_append_of_le_length]
    rw [List.length_drop]
    omega

/-- The sliding branch of `make_space`. -/
theorem slide_room {b : Buffer} (h : b.Inv) {len : Nat}
    (hfree : len + kCheapPrepend ≤ b.size - b.writerIndex + b.readerIndex) :
    Room b { buffer := overwrite b.buffer kCheapPrepend (b.peek b.readableBytes)
             readerIndex := kCheapPrepend
             writerIndex := sizeAdd kCheapPrepend b.readableBytes } len := by
  have hp := h.prepend_le
  have hr := h.reader_le
  have hw : b.writerIndex ≤ b.buffer.length := h.writer_le
  have hs := h.size_lt
  have hsize : b.size = b.buffer.length := rfl
  have hlen : b.readable.length = b.writerIndex - b.readerIndex := h.readable_length
  have hadd : sizeAdd kCheapPrepend b.readableBytes = kCheapPrepend + b.readable.length := by
    rw [h.readableBytes_eq_length, sizeAdd_eq (by omega)]
  rw [h.peek_readableBytes, hadd]
  refine ⟨⟨le_refl _, Nat.le_add_right _ _, ?_, ?_⟩, ?_, ?_, ?_⟩
  · simp only [size, overwrite_length]
    omega
  · simpa only [size, overwrite_length] using h.size_le
  · simp only [size, overwrite_length]
    omega
  · have hfits : kCheapPrepend + b.readable.length ≤ b.buffer.length := by omega
    have hwin := overwrite_window (le_refl kCheapPrepend) hfits
    rw [Nat.sub_self, Nat.zero_add, List.take_zero, List.nil_append] at hwin
    rwa [readable, peek, Nat.add_sub_cancel_left]
  · show kCheapPrepend + b.readable.length ≤ b.writerIndex
    omega

theorem ensureWritable_room {b : Buffer} (h : b.Inv) {len : Nat} (hf : b.Fits len) :
    Room b (b.ensureWritable len) len := by
  have hp := h.prepend_le
  have hr := h.reader_le
  have hw := h.writer_le
  have hs := h.size_lt
  unfold ensureWritable
  rw [h.writableBytes_eq]
  split
  · -- too little behind the data: grow or slide
    rename_i hshort
    have hfree : sizeAdd b.writableBytes b.prependableBytes
        = b.size - b.writerIndex + b.readerIndex := by
      rw [h.writableBytes_eq, prependableBytes, sizeAdd_eq (by omega)]
    unfold makeSpace
    rw [hfree]
    split
    · rename_i hlt
      have hneed : b.size - b.writerIndex + b.readerIndex < len + kCheapPrepend :=
        lt_of_lt_of_le hlt (Nat.mod_le _ _)
      have hcap := hf hneed
      have hmax : kMaxCapacity < 2 ^ 63 := by decide
      have hadd : sizeAdd b.writerIndex len = b.writerIndex + len := sizeAdd_eq (by omega)
      simp only [hadd, if_neg (Nat.not_lt.mpr hcap)]
      exact resize_room h (by omega) hcap
    · rename_i hge
      by_cases hneed : b.size - b.writerIndex + b.readerIndex < len + kCheapPrepend
      · -- the sum would have to wrap, which a request that fits cannot do
        have hcap := hf hneed
        have hmax : kMaxCapacity < 2 ^ 63 := by decide
        rw [sizeAdd_eq (by omega)] at hge
        exact absurd hneed hge
      · exact slide_room h (Nat.not_lt.mp hneed)
  · rename_i hroom
    exact ⟨h, by omega, rfl, le_refl _⟩

/-! ## Appending -/

/-- `memcpy` and `has_written` where there is room. -/
theorem write_spec {b : Buffer} (h : b.Inv) (data : Bytes)
    (hroom : b.writerIndex + data.length ≤ b.size) :
    ((b.memcpy data).hasWritten data.length).Inv
      ∧ ((b.memcpy data).hasWritten data.length).readable = b.readable ++ data
      ∧ ((b.memcpy data).hasWritten data.length).writerIndex = b.writerIndex + data.length := by
  have hr := h.reader_le
  have hs := h.size_lt
  have hw : b.writerIndex ≤ b.buffer.length := h.writer_le
  have hsize : b.size = b.buffer.length := rfl
  have hadd : sizeAdd b.writerIndex data.length = b.writerIndex + data.length :=
    sizeAdd_eq (by omega)
  refine ⟨⟨h.prepend_le, ?_, ?_, ?_⟩, ?_, hadd⟩
  · simp only [memcpy, hasWritten, hadd]
    omega
  · simpa only [memcpy, hasWritten, hadd, size, overwrite_length] using hroom
  · simpa only [memcpy, hasWritten, size, overwrite_length] using h.size_le
  · have hmid : b.writerIndex + data.length - b.readerIndex
        = b.writerIndex - b.readerIndex + data.length := by omega
    simp only [readable, peek, memcpy, hasWritten, hadd, hmid]
    exact overwrite_window hr hroom

theorem append_spec {b : Buffer} (h : b.Inv) {data : Bytes} (hf : b.Fits data.length) :
    (b.append data).Inv ∧ (b.append data).readable = b.readable ++ data
      ∧ (b.append data).writerIndex ≤ b.writerIndex + data.length := by
  have hroom := ensureWritable_room h hf
  obtain ⟨hinv, hread, hwriter⟩ := write_spec hroom.inv data hroom.room
  refine ⟨hinv, ?_, ?_⟩
  · rw [append, hread, hroom.readable_eq]
  · rw [append, hwriter]
    exact Nat.add_le_add_right hroom.writer_le _

theorem append_inv {b : Buffer} (h : b.Inv) {data : Bytes} (hf : b.Fits data.length) :
    (b.append data).Inv := (append_spec h hf).1

theorem append_readable {b : Buffer} (h : b.Inv) {data : Bytes} (hf : b.Fits data.length) :
    (b.append data).readable = b.readable ++ data := (append_spec h hf).2.1

/-- Where there is room already, `append` makes none. -/
theorem append_of_room {b : Buffer} (h : b.Inv) {data : Bytes}
    (hroom : b.writerIndex + data.length ≤ b.size) :
    b.append data = (b.memcpy data).hasWritten data.length := by
  rw [append, ensureWritable, if_neg]
  rw [h.writableBytes_eq]
  omega

/-! ## Without room -/

/-- A request that does not fit makes the vector grow to its limit. -/
theorem ensureWritable_of_not_fits {b : Buffer} (h : b.Inv) {len : Nat} (hlen : len < 2 ^ 62)
    (hf : ¬b.Fits len) : b.ensureWritable len = b.resize kMaxCapacity := by
  simp only [Fits, not_forall] at hf
  obtain ⟨hneed, hover⟩ := hf
  have hp := h.prepend_le
  have hw := h.writer_le
  have hr := h.reader_le
  have hs := h.size_lt
  have hpre : kCheapPrepend = 8 := rfl
  have hshort : b.writableBytes < len := by
    rw [h.writableBytes_eq]
    omega
  have hfree : sizeAdd b.writableBytes b.prependableBytes < sizeAdd len kCheapPrepend := by
    rw [h.writableBytes_eq, prependableBytes, sizeAdd_eq (by omega), sizeAdd_eq (by omega)]
    exact hneed
  have hadd : sizeAdd b.writerIndex len = b.writerIndex + len := sizeAdd_eq (by omega)
  rw [ensureWritable, if_pos hshort, makeSpace, if_pos hfree]
  simp only [hadd, if_pos (Nat.not_le.mp hover)]

/-- Whatever is appended, even where the vector may not grow that far, what was readable stays in
front. -/
theorem append_front {b : Buffer} (h : b.Inv) (hcap : b.writerIndex ≤ kMaxCapacity) {data : Bytes}
    (hlen : data.length < 2 ^ 62) :
    b.readable <+: (b.append data).peek (b.append data).readableBytes := by
  by_cases hf : b.Fits data.length
  · rw [(append_inv h hf).peek_readableBytes, append_readable h hf]
    exact List.prefix_append _ _
  · -- the end of the data is cut off
    have hgrow := ensureWritable_of_not_fits h hlen hf
    have hr := h.reader_le
    have hs := h.size_lt
    have hmax : kMaxCapacity < 2 ^ 62 := by decide
    have hw : b.writerIndex ≤ b.buffer.length := h.writer_le
    have hbytes : (b.append data).readableBytes
        = b.writerIndex - b.readerIndex + data.length := by
      have hadd : sizeAdd b.writerIndex data.length = b.writerIndex + data.length :=
        sizeAdd_eq (by omega)
      simp only [append, hgrow, readableBytes, hasWritten, memcpy, resize, hadd]
      rw [sizeSub_eq (by omega) (by omega)]
      omega
    have hreader : (b.append data).readerIndex = b.readerIndex := by
      simp only [append, hgrow, hasWritten, memcpy, resize]
    have hkeep : ((b.append data).buffer.drop b.readerIndex).take (b.writerIndex - b.readerIndex)
        = b.readable := by
      have hsize : b.buffer.length = b.size := rfl
      simp only [append, hgrow, hasWritten, memcpy, resize, overwrite, readable, peek]
      rw [← List.drop_take, ← List.drop_take, List.take_take, List.append_assoc,
        List.take_append_of_le_length, List.take_take, List.take_append_of_le_length, List.take_take]
      · congr 2
        rw [List.length_append, List.length_take, List.length_replicate]
        omega
      · rw [List.length_take]
        omega
      · rw [List.length_take, List.length_append, List.length_take, List.length_replicate]
    rw [hbytes, peek, hreader, ← hkeep]
    exact List.take_prefix_take_left (Nat.le_add_right _ data.length)

/-! ## Appending in a row -/

/-- Fields appended one after the other: into room that has been made for all of them, or into a
vector that may still grow that far. -/
theorem foldl_append_spec {b : Buffer} (h : b.Inv) {fields : List Bytes}
    (hroom : b.writerIndex + fields.flatten.length ≤ b.size
      ∨ b.writerIndex + fields.flatten.length ≤ kMaxCapacity) :
    (fields.foldl append b).Inv
      ∧ (fields.foldl append b).readable = b.readable ++ fields.flatten
      ∧ (fields.foldl append b).writerIndex ≤ b.writerIndex + fields.flatten.length := by
  -- on the fields: room that is there stays there, and so does what is left of the capacity
  induction fields generalizing b with
  | nil => exact ⟨h, (List.append_nil _).symm, Nat.le_add_right _ _⟩
  | cons data fields ih =>
      rw [List.flatten_cons, List.length_append] at hroom
      have hfits : b.Fits data.length := by
        rcases hroom with hroom | hcap
        · exact Fits.of_room h (by omega)
        · exact Fits.of_le (by omega)
      obtain ⟨hinv, hread, hwriter⟩ := append_spec h hfits
      have hnext : (b.append data).writerIndex + fields.flatten.length ≤ (b.append data).size
          ∨ (b.append data).writerIndex + fields.flatten.length ≤ kMaxCapacity := by
        rcases hroom with hroom | hcap
        · left
          have hsize : (b.append data).size = b.size := by
            rw [append_of_room h (by omega)]
            exact overwrite_length _ _ _
          omega
        · right
          omega
      obtain ⟨hinv', hread', hwriter'⟩ := ih hinv hnext
      rw [hread, List.append_assoc] at hread'
      refine ⟨hinv', hread', ?_⟩
      rw [List.foldl_cons, List.flatten_cons, List.length_append]
      omega

/-- The pattern of the encoders: reserve some size, then append field by field. -/
theorem encoded_spec {n : Nat} {fields : List Bytes} (hfits : new.Fits n)
    (hn : fields.flatten.length ≤ n ∨ kCheapPrepend + fields.flatten.length ≤ kMaxCapacity) :
    (fields.foldl append (new.ensureWritable n)).Inv
      ∧ (fields.foldl append (new.ensureWritable n)).readable = fields.flatten := by
  have hroom := ensureWritable_room new_inv hfits
  have hwriter : (new.ensureWritable n).writerIndex ≤ kCheapPrepend := hroom.writer_le
  have hsize := hroom.room
  obtain ⟨hinv, hread, -⟩ := @foldl_append_spec _ hroom.inv fields (by omega)
  rw [hroom.readable_eq, new_readable, List.nil_append] at hread
  exact ⟨hinv, hread⟩

/-! ## Overruns -/

/-- Bytes appended to a vector at its limit, of which they need more: only the index moves on. -/
theorem append_overrun {b : Buffer} (hsize : b.size = kMaxCapacity) (hreader : b.readerIndex = kCheapPrepend)
    (hwriter : kCheapPrepend ≤ b.writerIndex) {data : Bytes}
    (hlen : b.writerIndex + data.length < 2 ^ 62) :
    (b.append data).size = kMaxCapacity ∧ (b.append data).readerIndex = kCheapPrepend
      ∧ (b.append data).writerIndex = b.writerIndex + data.length := by
  have hpre : kCheapPrepend = 8 := rfl
  have hmax : kMaxCapacity < 2 ^ 62 := by decide
  have hmade : (b.ensureWritable data.length).size = kMaxCapacity
      ∧ (b.ensureWritable data.length).readerIndex = kCheapPrepend
      ∧ (b.ensureWritable data.length).writerIndex = b.writerIndex := by
    unfold ensureWritable
    split
    swap
    · exact ⟨hsize, hreader, rfl⟩
    rename_i hshort
    -- an index past the end makes the room look endless, so here it is still inside
    have hin : b.writerIndex ≤ b.size := by
      by_contra hpast
      unfold writableBytes sizeSub at hshort
      omega
    have hroom : b.writableBytes = b.size - b.writerIndex := sizeSub_eq hin (by omega)
    have hadd : sizeAdd b.writerIndex data.length = b.writerIndex + data.length :=
      sizeAdd_eq (by omega)
    have hneed : sizeAdd b.writableBytes b.prependableBytes < sizeAdd data.length kCheapPrepend := by
      rw [prependableBytes, hreader, sizeAdd_eq (by omega), sizeAdd_eq (by omega)]
      omega
    rw [makeSpace, if_pos hneed]
    dsimp only
    rw [hadd, if_pos (by omega)]
    refine ⟨?_, hreader, rfl⟩
    rw [resize, size, List.length_append, List.length_take, List.length_replicate]
    have hb : b.buffer.length = kMaxCapacity := hsize
    omega
  obtain ⟨hsize', hreader', hwriter'⟩ := hmade
  refine ⟨?_, hreader', ?_⟩
  · exact (overwrite_length _ _ _).trans hsize'
  · show sizeAdd (b.ensureWritable data.length).writerIndex data.length = _
    rw [hwriter', sizeAdd_eq (by omega)]

/-- The fields of an encoder that has asked for more than the vector may have are not all inside. -/
theorem encoded_overrun {n : Nat} {fields : List Bytes} (hn : n < 2 ^ 61) (hfits : ¬new.Fits n)
    (hlen : fields.flatten.length = n) : ¬(fields.foldl append (new.ensureWritable n)).Inv := by
  have hover : kMaxCapacity < kCheapPrepend + n := by
    by_contra hle
    exact hfits (Fits.of_le (Nat.not_lt.mp hle))
  have hrun : ∀ {b : Buffer} {fields : List Bytes}, b.size = kMaxCapacity →
      b.readerIndex = kCheapPrepend → kCheapPrepend ≤ b.writerIndex →
      b.writerIndex + fields.flatten.length < 2 ^ 62 →
      (fields.foldl append b).size = kMaxCapacity
        ∧ (fields.foldl append b).writerIndex = b.writerIndex + fields.flatten.length := by
    intro b fields hsize hreader hwriter hlen
    induction fields generalizing b with
    | nil => exact ⟨hsize, rfl⟩
    | cons data fields ih =>
        rw [List.flatten_cons, List.length_append] at hlen ⊢
        obtain ⟨hsize', hreader', hwriter'⟩ :=
          @append_overrun b hsize hreader hwriter data (by omega)
        obtain ⟨hsize'', hwriter''⟩ := ih hsize' hreader' (by omega) (by omega)
        exact ⟨hsize'', by rw [List.foldl_cons, hwriter'', hwriter']; omega⟩
  rw [ensureWritable_of_not_fits new_inv (by omega) hfits]
  have hpre : kCheapPrepend = 8 := rfl
  have hmax : kMaxCapacity < 2 ^ 61 := by decide
  have hnew : new.buffer.length = kCheapPrepend + kInitialSize := new_size
  have hgrown : (new.resize kMaxCapacity).size = kMaxCapacity := by
    rw [resize, size, List.length_append, List.length_take, List.length_replicate, new_size, hnew]
    decide
  obtain ⟨hsize, hwriter⟩ := @hrun _ fields hgrown rfl (le_refl _)
    (show kCheapPrepend + _ < _ by omega)
  intro hinv
  have hle := hinv.writer_le
  rw [hsize, hwriter] at hle
  have hstart : (new.resize kMaxCapacity).writerIndex = kCheapPrepend := rfl
  omega

/-! ## `read_fd` -/

/-- What `read_fd` puts into the buffer when `readv` succeeds. -/
def delivered (b : Buffer) (bytes : Bytes) : Bytes := bytes.take b.readvCapacity

/-- The condition under which `read_fd` stays inside the vector: what spills into `extrabuf` must
fit behind a vector that is full to its end. -/
def ReadFits (b : Buffer) : Option Bytes → Prop
  | none => True
  | some bytes =>
      b.writableBytes < (b.delivered bytes).length →
        { b with writerIndex := b.size }.Fits ((b.delivered bytes).length - b.writableBytes)

instance (b : Buffer) : (incoming : Option Bytes) → Decidable (b.ReadFits incoming)
  | none => isTrue trivial
  | some _ => inferInstanceAs (Decidable (_ → _))

/-- Bytes that are copied in do not change what fits. -/
theorem fits_memcpy {b : Buffer} (data : Bytes) {writerIndex len : Nat} :
    Fits { b.memcpy data with writerIndex } len ↔ Fits { b with writerIndex } len := by
  simp only [Fits, memcpy, size, overwrite_length]

/-- The first `iovec`, filled to the end of the vector. -/
theorem fill_spec {b : Buffer} (h : b.Inv) {data : Bytes} (hlen : data.length = b.writableBytes) :
    Inv { b.memcpy data with writerIndex := b.size }
      ∧ readable { b.memcpy data with writerIndex := b.size } = b.readable ++ data := by
  have hw := h.writer_le
  have hend : b.writerIndex + data.length = b.size := by
    rw [hlen, h.writableBytes_eq]
    omega
  obtain ⟨hinv, hread, hidx⟩ := write_spec h data (le_of_eq hend)
  have hfull : { b.memcpy data with writerIndex := b.size }
      = (b.memcpy data).hasWritten data.length := by
    rw [← hend, ← hidx]
    rfl
  rw [hfull]
  exact ⟨hinv, hread⟩

theorem readFd_some {b : Buffer} (h : b.Inv) {bytes : Bytes} (hf : b.ReadFits (some bytes)) :
    (b.readFd (some bytes)).2.Inv
      ∧ (b.readFd (some bytes)).2.readable = b.readable ++ b.delivered bytes := by
  have hdata : bytes.take b.readvCapacity = b.delivered bytes := rfl
  simp only [readFd, hdata]
  split
  · -- everything went into the vector
    rename_i hle
    have hw := h.writer_le
    have hall : (b.delivered bytes).take b.writableBytes = b.delivered bytes :=
      List.take_of_length_le hle
    have hroom : b.writerIndex + (b.delivered bytes).length ≤ b.size := by
      rw [h.writableBytes_eq] at hle
      omega
    rw [hall]
    obtain ⟨hinv, hread, -⟩ := write_spec h (b.delivered bytes) hroom
    exact ⟨hinv, hread⟩
  · -- the vector is full, and `extrabuf` is appended to it
    rename_i hgt
    have hlen : ((b.delivered bytes).take b.writableBytes).length = b.writableBytes :=
      List.length_take_of_le (le_of_lt (Nat.not_le.mp hgt))
    obtain ⟨hinv, hread⟩ := fill_spec h hlen
    have hfits := (fits_memcpy ((b.delivered bytes).take b.writableBytes)).mpr
      (hf (Nat.not_le.mp hgt))
    rw [← List.length_drop] at hfits
    refine ⟨append_inv hinv hfits, ?_⟩
    rw [append_readable hinv hfits, hread, List.append_assoc, List.take_append_drop]

end LightNet.Core.Buffer
