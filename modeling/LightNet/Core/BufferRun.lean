/-
# LightNet.Core.BufferRun — the buffer over whole runs of calls.

A run is a list of calls, each with the length or the bytes it is given.  `Op.Fits` is the side
condition of one call: whatever it asks `ensure_writable` for can be served below `kMaxCapacity`.
Along runs whose calls all fit, the class invariant holds in every state and every
`ensure_writable` leaves the room it was asked for; `ensureWritable_room_iff` says that a single
request that does not fit is exactly one for which the room is missing.
-/
import LightNet.Core.BufferQueue

namespace LightNet.Core.Buffer

open LightNet.Foundation

/-- One call on a `Buffer`. -/
inductive Op where
  | append (data : Bytes)
  | ensureWritable (len : Nat)
  | retrieve (len : Nat)
  | retrieveAll
  | retrieveAsString (len : Nat)
  | readFd (incoming : Option Bytes)
  deriving DecidableEq

/-- The buffer after one call. -/
def step (b : Buffer) : Op → Buffer
  | .append data => b.append data
  | .ensureWritable len => b.ensureWritable len
  | .retrieve len => b.retrieve len
  | .retrieveAll => b.retrieveAll
  | .retrieveAsString len => (b.retrieveAsString len).2
  | .readFd incoming => (b.readFd incoming).2

/-- The call can be served without reaching `kMaxCapacity`. -/
def OpFits (b : Buffer) : Op → Prop
  | .append data => b.Fits data.length
  | .ensureWritable len => b.Fits len
  | .readFd incoming => b.ReadFits incoming
  | _ => True

instance (b : Buffer) : (op : Op) → Decidable (b.OpFits op)
  | .append data => inferInstanceAs (Decidable (b.Fits data.length))
  | .ensureWritable len => inferInstanceAs (Decidable (b.Fits len))
  | .readFd incoming => inferInstanceAs (Decidable (b.ReadFits incoming))
  | .retrieve _ | .retrieveAll | .retrieveAsString _ => isTrue trivial

/-- The call of `ensure_writable` inside an operation, if it makes one: the buffer it is made on and
the length asked for.  In `read_fd` that is the append of the spill, after `writer_index_` has been
set to the end of the vector. -/
def ensureCall (b : Buffer) : Op → Option (Buffer × Nat)
  | .append data => some (b, data.length)
  | .ensureWritable len => some (b, len)
  | .readFd (some bytes) =>
      let data := b.delivered bytes
      if data.length ≤ b.writableBytes then none
      else some ({ b.memcpy (data.take b.writableBytes) with writerIndex := b.size },
        data.length - b.writableBytes)
  | _ => none

/-- The bounds of the indices. -/
def Bounded (b : Buffer) : Prop :=
  kCheapPrepend ≤ b.readerIndex ∧ b.readerIndex ≤ b.writerIndex ∧ b.writerIndex ≤ b.size

/-- There is room for `len` more bytes. -/
def HasRoom (b : Buffer) (len : Nat) : Prop := b.writerIndex + len ≤ b.size

instance (b : Buffer) : Decidable b.Bounded := inferInstanceAs (Decidable (_ ∧ _))

instance (b : Buffer) (len : Nat) : Decidable (b.HasRoom len) :=
  inferInstanceAs (Decidable (_ ≤ _))

theorem Inv.bounded {b : Buffer} (h : b.Inv) : b.Bounded :=
  ⟨h.prepend_le, h.reader_le, h.writer_le⟩

/-! ## One call -/

theorem step_inv {b : Buffer} {op : Op} (h : b.Inv) (hf : b.OpFits op) : (b.step op).Inv := by
  cases op with
  | append data => exact append_inv h hf
  | ensureWritable len => exact (ensureWritable_room h hf).inv
  | retrieve len => exact retrieve_inv h len
  | retrieveAll => exact retrieveAll_inv h
  | retrieveAsString len =>
      simp only [step, retrieveAsString_snd]
      exact retrieve_inv h len
  | readFd incoming =>
      cases incoming with
      | none => exact h
      | some bytes => exact (readFd_some h hf).1

theorem ensureCall_hasRoom {b c : Buffer} {op : Op} {len : Nat} (h : b.Inv) (hf : b.OpFits op)
    (hcall : b.ensureCall op = some (c, len)) : (c.ensureWritable len).HasRoom len := by
  cases op with
  | append data =>
      obtain ⟨rfl, rfl⟩ := Prod.mk.inj (Option.some.inj hcall)
      exact (ensureWritable_room h hf).room
  | ensureWritable n =>
      obtain ⟨rfl, rfl⟩ := Prod.mk.inj (Option.some.inj hcall)
      exact (ensureWritable_room h hf).room
  | readFd incoming =>
      cases incoming with
      | none => exact absurd hcall (by simp [ensureCall])
      | some bytes =>
          simp only [ensureCall] at hcall
          split at hcall
          · exact absurd hcall (by simp)
          · rename_i hgt
            obtain ⟨rfl, rfl⟩ := Prod.mk.inj (Option.some.inj hcall)
            have hlen : ((b.delivered bytes).take b.writableBytes).length = b.writableBytes :=
              List.length_take_of_le (le_of_lt (Nat.not_le.mp hgt))
            have hfits := (fits_memcpy ((b.delivered bytes).take b.writableBytes)).mpr
              (hf (Nat.not_le.mp hgt))
            exact (ensureWritable_room (fill_spec h hlen).1 hfits).room
  | retrieve n => exact absurd hcall (by simp [ensureCall])
  | retrieveAll => exact absurd hcall (by simp [ensureCall])
  | retrieveAsString n => exact absurd hcall (by simp [ensureCall])

/-! ## Requests that do not fit -/

theorem resize_size (b : Buffer) (n : Nat) : (b.resize n).size = n := by
  simp only [resize, size, List.length_append, List.length_take, List.length_replicate]
  omega

/-- No buffer grows past the cap. -/
theorem ensureWritable_size_le {b : Buffer} (h : b.size ≤ kMaxCapacity) (len : Nat) :
    (b.ensureWritable len).size ≤ kMaxCapacity := by
  unfold ensureWritable makeSpace
  split
  · split
    · rw [resize_size]
      split <;> omega
    · show (overwrite b.buffer kCheapPrepend _).length ≤ kMaxCapacity
      rw [overwrite_length]
      exact h
  · exact h

theorem append_size_le {b : Buffer} (h : b.size ≤ kMaxCapacity) (data : Bytes) :
    (b.append data).size ≤ kMaxCapacity := by
  show (overwrite (b.ensureWritable data.length).buffer _ data).length ≤ kMaxCapacity
  rw [overwrite_length]
  exact ensureWritable_size_le h _

/-- **Exactly when `ensure_writable` delivers.** On a buffer in order the room it was asked for is
there if and only if the request fits. -/
theorem ensureWritable_room_iff {b : Buffer} (h : b.Inv) {len : Nat} :
    (b.ensureWritable len).HasRoom len ↔ b.Fits len := by
  constructor
  swap
  · intro hf
    exact (ensureWritable_room h hf).room
  intro hroom hneed
  by_contra hcap
  have hp := h.prepend_le
  have hr := h.reader_le
  have hw := h.writer_le
  have hs := h.size_lt
  have hshort : b.writableBytes < len := by
    rw [h.writableBytes_eq]
    omega
  rw [ensureWritable, if_pos hshort, makeSpace] at hroom
  split at hroom
  · -- the grown vector is cut at `kMaxCapacity` or by the wrapped sum
    have hcut : (b.resize (if sizeAdd b.writerIndex len > kMaxCapacity then kMaxCapacity
        else sizeAdd b.writerIndex len)).size ≤ kMaxCapacity := by
      rw [resize_size]
      split <;> omega
    have hindex : (b.resize (if sizeAdd b.writerIndex len > kMaxCapacity then kMaxCapacity
        else sizeAdd b.writerIndex len)).writerIndex = b.writerIndex := rfl
    simp only [HasRoom, hindex] at hroom
    omega
  · -- sliding frees only what was free in front
    have hadd : sizeAdd kCheapPrepend b.readableBytes
        = kCheapPrepend + (b.writerIndex - b.readerIndex) := by
      rw [h.readableBytes_eq, sizeAdd_eq (by omega)]
    simp only [HasRoom, hadd, size, overwrite_length] at hroom
    have hsize : b.size = b.buffer.length := rfl
    omega

/-! ## Runs -/

theorem run_inv {ops : List Op} (h : Admissible step OpFits new ops) : (run step new ops).Inv :=
  run_invariant (fun _ _ => step_inv) new_inv h

/-- **The buffer stays in bounds.** From a default-constructed buffer, along every run whose calls
fit below `kMaxCapacity`, the indices are in order in every state, and each `ensure_writable` made
by the next call that fits leaves room for the bytes that are then written. -/
theorem bounded_of_admissible (ops : List Op) (h : Admissible step OpFits new ops) :
    (run step new ops).Bounded
      ∧ ∀ op, (run step new ops).OpFits op →
          ((run step new ops).step op).Bounded
            ∧ ∀ c len, (run step new ops).ensureCall op = some (c, len) →
                (c.ensureWritable len).HasRoom len := by
  have hinv := run_inv h
  refine ⟨hinv.bounded, ?_⟩
  intro op hop
  refine ⟨(step_inv hinv hop).bounded, ?_⟩
  intro c len hcall
  exact ensureCall_hasRoom hinv hop hcall

/-- Append, consume a part, let `read_fd` spill, and ask for more room. -/
theorem bounded_of_admissible_sample :
    Admissible step OpFits new [.append [1, 2, 3], .retrieve 1, .readFd (some (List.replicate 1100 7)),
        .ensureWritable 2000]
      ∧ (run step new [.append [1, 2, 3], .retrieve 1, .readFd (some (List.replicate 1100 7)),
        .ensureWritable 2000]).Bounded := by
  have hok : Admissible step OpFits new [.append [1, 2, 3], .retrieve 1,
      .readFd (some (List.replicate 1100 7)), .ensureWritable 2000] := by
    decide +kernel
  exact ⟨hok, (bounded_of_admissible _ hok).1⟩

theorem new_not_fits : ¬ new.Fits kMaxCapacity := by
  intro h
  have hcap := h (by rw [new_size]; decide)
  exact absurd hcap (by decide)

/-- A default-constructed buffer asked for `kMaxCapacity` bytes does not get them, and appending
that many bytes leaves `writer_index_` behind the end of the vector. -/
theorem new_overrun :
    ¬ (new.ensureWritable kMaxCapacity).HasRoom kMaxCapacity
      ∧ ¬ (run step new [.append (List.replicate kMaxCapacity 0)]).Bounded := by
  have hroom : ¬ (new.ensureWritable kMaxCapacity).HasRoom kMaxCapacity := by
    intro hroom
    exact new_not_fits ((ensureWritable_room_iff new_inv).mp hroom)
  have hgrow : new.ensureWritable kMaxCapacity = new.resize kMaxCapacity := by
    have hsize := new_size
    have hw : new.writableBytes = kInitialSize := by
      rw [new_inv.writableBytes_eq, hsize]
      rfl
    rw [ensureWritable, hw, if_pos (by decide), makeSpace, hw, if_pos (by decide)]
    exact congrArg new.resize (if_pos (by decide))
  refine ⟨hroom, ?_⟩
  intro hbound
  have hle := hbound.2.2
  simp only [run_cons, run_nil, step, append, List.length_replicate, hgrow, hasWritten, memcpy,
    size, overwrite_length] at hle
  have hcut : (new.resize kMaxCapacity).buffer.length = kMaxCapacity := resize_size _ _
  rw [hcut] at hle
  exact absurd hle (by decide)

end LightNet.Core.Buffer
