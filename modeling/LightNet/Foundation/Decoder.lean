/-
# LightNet.Foundation.Decoder — decoders that need every byte of an encoding.

`Parses F bs G` says what a decoder `F` does with a byte string that starts with `bs`: on the whole of
it `F` goes on as `G` with what follows, and on every strict prefix of `bs` it fails.  With
`G = fun _ => some v` this is a round trip with a tail together with the rejection of truncations.
`Parses.field` chains the fields of a `do` block, so the rule for a whole record is one application
for each field, in the order of the source.
-/
import LightNet.Foundation.LittleEndian

namespace LightNet.Foundation

variable {α β : Type}

/-- `F` takes `bs` off the front and goes on as `G`; it fails on every strict prefix of `bs`. -/
structure Parses (F : Bytes → Option α) (bs : Bytes) (G : Bytes → Option α) : Prop where
  append : ∀ tail, F (bs ++ tail) = G tail
  truncated : ∀ pre, pre <+: bs → pre ≠ bs → F pre = none

namespace Parses

theorem nil (F : Bytes → Option α) : Parses F [] F where
  append _ := rfl
  truncated _ hpre hne := absurd (List.prefix_nil.mp hpre) hne

theorem trans {F G H : Bytes → Option α} {bs cs : Bytes} (hF : Parses F bs G) (hG : Parses G cs H) :
    Parses F (bs ++ cs) H where
  append tail := by rw [List.append_assoc, hF.append, hG.append]
  truncated pre hpre hne := by
    -- the prefix ends inside the first part, or it is the first part and a prefix of the second
    rcases List.prefix_or_prefix_of_prefix hpre (List.prefix_append bs cs) with hin | ⟨mid, rfl⟩
    · by_cases hall : pre = bs
      · subst hall
        have hempty : G [] = none := by
          apply hG.truncated [] List.nil_prefix
          intro hcs
          exact hne (by rw [← hcs, List.append_nil])
        rw [← List.append_nil pre, hF.append, hempty]
      · exact hF.truncated pre hin hall
    · rw [hF.append]
      apply hG.truncated mid ((List.prefix_append_right_inj bs).mp hpre)
      intro hmid
      exact hne (by rw [hmid])

theorem bind {F G : Bytes → Option α} {bs : Bytes} (h : Parses F bs G) (k : α → Option β) :
    Parses (fun xs => F xs >>= k) bs fun xs => G xs >>= k where
  append tail := by simp only [h.append]
  truncated pre hpre hne := by
    simp only [h.truncated pre hpre hne]
    rfl

/-- A field, and then what is made of it and of the rest. -/
theorem field {r : Reader α} {bs cs : Bytes} {v : α} (h : Parses r bs fun tail => some (v, tail))
    {k : α × Bytes → Option β} {G : Bytes → Option β} (hk : Parses (fun xs => k (v, xs)) cs G) :
    Parses (fun xs => r xs >>= k) (bs ++ cs) G :=
  (h.bind k).trans hk

/-- The last field. -/
theorem last {r : Reader α} {bs : Bytes} {v : α} (h : Parses r bs fun tail => some (v, tail))
    (k : α × Bytes → Option β) : Parses (fun xs => r xs >>= k) bs fun xs => k (v, xs) :=
  h.bind k

theorem map {r : Reader α} {bs : Bytes} {v : α} (h : Parses r bs fun tail => some (v, tail))
    (f : α → β) :
    Parses (fun xs => (r xs).map fun p => (f p.1, p.2)) bs fun tail => some (f v, tail) where
  append tail := by simp only [h.append, Option.map_some]
  truncated pre hpre hne := by simp only [h.truncated pre hpre hne, Option.map_none]

end Parses

theorem parses_readBytes {w : Nat} {bs : Bytes} (h : bs.length = w) :
    Parses (readBytes w) bs fun tail => some (bs, tail) where
  append := readBytes_reads h
  truncated pre hpre hne := by
    have hle := hpre.length_le
    have hlen : pre.length ≠ bs.length := fun hlen => hne (hpre.eq_of_length hlen)
    rw [readBytes, if_neg (by omega)]

theorem parses_readLe {w n : Nat} {ofNat : Nat → α} {v : α} (h : ofNat (n % 256 ^ w) = v) :
    Parses (readLe w ofNat) (leBytes w n) fun tail => some (v, tail) := by
  have hraw := (parses_readBytes (leBytes_length w n)).map fun raw => ofNat (leNat raw)
  rw [leNat_leBytes, h] at hraw
  exact hraw

end LightNet.Foundation
