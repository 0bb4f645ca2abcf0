/-
# LightNet.Foundation.LittleEndian — fixed-width little-endian fields and readers of byte strings.

`leBytes w n` are the `w` bytes of `n`, least significant first; `leNat` reads them back.  A `Reader`
consumes a prefix of a byte string or fails; `Reads r bs v` is the one fact a codec proof needs about
a field: on `bs` followed by *anything*, `r` returns `v` and leaves exactly that anything.
-/
import Mathlib.Data.List.Basic
import Mathlib.Tactic.Ring

namespace LightNet.Foundation

/-- A byte string. -/
abbrev Bytes := List UInt8

/-- The bytes of an ASCII text, written as characters. -/
def ascii (cs : List Char) : Bytes := cs.map fun c => UInt8.ofNat c.toNat

/-- The bytes of a string literal. -/
def literal (s : String) : Bytes := ascii s.toList

/-! ## Little-endian naturals -/

/-- The `w` little-endian bytes of `n`; what does not fit is dropped. -/
def leBytes : Nat → Nat → Bytes
  | 0, _ => []
  | w + 1, n => UInt8.ofNat n :: leBytes w (n / 256)

/-- The natural number with the given little-endian bytes. -/
def leNat : Bytes → Nat
  | [] => 0
  | b :: bs => b.toNat + 256 * leNat bs

@[simp] theorem leBytes_length (w n : Nat) : (leBytes w n).length = w := by
  induction w generalizing n with
  | zero => rfl
  | succ w ih => simp only [leBytes, List.length_cons, ih]

theorem leNat_leBytes (w n : Nat) : leNat (leBytes w n) = n % 256 ^ w := by
  induction w generalizing n with
  | zero => simp [leBytes, leNat, Nat.mod_one]
  | succ w ih =>
    have hb : (UInt8.ofNat n).toNat = n % 256 := by simp
    rw [leBytes, leNat, ih, hb, pow_succ', Nat.mod_mul]

theorem leNat_leBytes_of_lt {w n : Nat} (h : n < 256 ^ w) : leNat (leBytes w n) = n := by
  rw [leNat_leBytes, Nat.mod_eq_of_lt h]

theorem leNat_lt (bs : Bytes) : leNat bs < 256 ^ bs.length := by
  induction bs with
  | nil => simp [leNat]
  | cons b bs ih =>
    have hb : b.toNat < 256 := b.toNat_lt
    rw [leNat, List.length_cons, pow_succ]
    omega

theorem leBytes_leNat (bs : Bytes) : leBytes bs.length (leNat bs) = bs := by
  induction bs with
  | nil => rfl
  | cons b bs ih =>
    have hb : b.toNat < 256 := b.toNat_lt
    have hlow : UInt8.ofNat (b.toNat + 256 * leNat bs) = b := by
      apply UInt8.toNat_inj.mp
      simp only [UInt8.toNat_ofNat']
      omega
    have hhigh : (b.toNat + 256 * leNat bs) / 256 = leNat bs := by omega
    rw [List.length_cons, leNat, leBytes, hlow, hhigh, ih]

theorem leBytes_leNat_of_length {w : Nat} {bs : Bytes} (h : bs.length = w) :
    leBytes w (leNat bs) = bs := by
  subst h
  exact leBytes_leNat bs

/-- Only the low `w` bytes of the number matter. -/
theorem leBytes_mod (w n : Nat) : leBytes w (n % 256 ^ w) = leBytes w n := by
  rw [← leNat_leBytes]
  exact leBytes_leNat_of_length (leBytes_length w n)

/-! ## Readers -/

/-- A reader takes a value off the front of a byte string, or fails. -/
abbrev Reader (α : Type*) := Bytes → Option (α × Bytes)

/-- `w` raw bytes. -/
def readBytes (w : Nat) : Reader Bytes := fun bs =>
  if w ≤ bs.length then some (bs.take w, bs.drop w) else none

/-- `r` reads `v` off `bs`, whatever follows. -/
def Reads {α : Type*} (r : Reader α) (bs : Bytes) (v : α) : Prop :=
  ∀ tail, r (bs ++ tail) = some (v, tail)

theorem readBytes_reads {w : Nat} {bs : Bytes} (h : bs.length = w) : Reads (readBytes w) bs bs := by
  intro tail
  subst h
  simp [readBytes]

theorem readBytes_eq_some {w : Nat} {bs v rest : Bytes} :
    readBytes w bs = some (v, rest) ↔ bs = v ++ rest ∧ v.length = w := by
  constructor
  · intro h
    unfold readBytes at h
    split at h
    · rename_i hw
      simp only [Option.some.injEq, Prod.mk.injEq] at h
      obtain ⟨rfl, rfl⟩ := h
      exact ⟨(List.take_append_drop w bs).symm, List.length_take_of_le hw⟩
    · exact absurd h (by simp)
  · rintro ⟨rfl, hw⟩
    exact readBytes_reads hw rest

/-- A little-endian field of `w` bytes, turned into a value. -/
def readLe {α : Type*} (w : Nat) (ofNat : Nat → α) : Reader α := fun bs =>
  (readBytes w bs).map fun r => (ofNat (leNat r.1), r.2)

theorem readLe_reads {α : Type*} {w n : Nat} {ofNat : Nat → α} {v : α}
    (h : ofNat (n % 256 ^ w) = v) : Reads (readLe w ofNat) (leBytes w n) v := by
  intro tail
  rw [readLe, readBytes_reads (leBytes_length w n), Option.map_some, leNat_leBytes, h]

theorem exists_readLe {α : Type*} {w : Nat} (ofNat : Nat → α) {bs : Bytes} (h : w ≤ bs.length) :
    ∃ v rest, readLe w ofNat bs = some (v, rest) := by
  rw [readLe, readBytes, if_pos h]
  exact ⟨_, _, rfl⟩

/-- A field that keeps every number of its width was written from the value that is read. -/
theorem readLe_eq_some {α : Type*} {w : Nat} {ofNat : Nat → α} {toNat : α → Nat}
    (h : ∀ n, n < 256 ^ w → toNat (ofNat n) = n) {bs rest : Bytes} {v : α}
    (hread : readLe w ofNat bs = some (v, rest)) : bs = leBytes w (toNat v) ++ rest := by
  simp only [readLe, Option.map_eq_some_iff, Prod.exists, Prod.mk.injEq] at hread
  obtain ⟨raw, _, hraw, rfl, rfl⟩ := hread
  obtain ⟨rfl, hlen⟩ := readBytes_eq_some.mp hraw
  have hlt : leNat raw < 256 ^ w := by
    rw [← hlen]
    exact leNat_lt raw
  rw [h _ hlt, leBytes_leNat_of_length hlen]

end LightNet.Foundation
