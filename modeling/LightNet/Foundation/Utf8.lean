/-
# LightNet.Foundation.Utf8 — byte strings that are UTF-8, and where they may be cut.

The first bytes of a UTF-8 text are UTF-8 again exactly when the cut falls between two characters, and
that can be seen from one byte: the first one behind the cut does not continue a character.
-/
import LightNet.Foundation.LittleEndian
import Mathlib.Data.List.Basic

namespace LightNet.Foundation

/-- The bytes are the UTF-8 text of some characters. -/
def IsUtf8 (bs : Bytes) : Prop := (ByteArray.mk bs.toArray).IsValidUTF8

theorem isUtf8_iff {bs : Bytes} :
    IsUtf8 bs ↔ ∃ cs : List Char, bs = cs.flatMap String.utf8EncodeChar := by
  constructor
  · rintro ⟨cs, hcs⟩
    have hdata := congrArg ByteArray.data hcs
    rw [List.utf8Encode, List.data_toByteArray] at hdata
    exact ⟨cs, congrArg Array.toList hdata⟩
  · rintro ⟨cs, rfl⟩
    refine ⟨cs, ByteArray.ext ?_⟩
    rw [List.utf8Encode, List.data_toByteArray]

/-- No character is cut in two after `n` bytes: there is no byte behind the cut, or a character begins
there. -/
def CutsBetween (n : Nat) (bs : Bytes) : Prop := ∀ b ∈ bs[n]?, b.IsUTF8FirstByte

instance (n : Nat) (bs : Bytes) : Decidable (CutsBetween n bs) :=
  match h : bs[n]? with
  | none => isTrue (by simp [CutsBetween, h])
  | some b => decidable_of_iff b.IsUTF8FirstByte (by simp [CutsBetween, h])

theorem cutsBetween_of_length_le {n : Nat} {bs : Bytes} (h : bs.length ≤ n) : CutsBetween n bs := by
  intro b hb
  rw [List.getElem?_eq_none h] at hb
  cases hb

/-- **Where a text may be cut.** -/
theorem isUtf8_take_iff {bs : Bytes} (h : IsUtf8 bs) (n : Nat) :
    IsUtf8 (bs.take n) ↔ CutsBetween n bs := by
  by_cases hn : n < bs.length
  · -- as a position of the text, of which the library says when it is valid
    let s : String := .ofByteArray ⟨bs.toArray⟩ h
    have hend : (⟨n⟩ : String.Pos.Raw) < s.rawEndPos := hn
    have hfront : s.toByteArray.extract 0 n = ⟨(bs.take n).toArray⟩ := by
      refine ByteArray.ext ?_
      rw [ByteArray.data_extract]
      show bs.toArray.extract 0 n = _
      rw [List.extract_toArray, List.extract_eq_take_drop, List.drop_zero, Nat.sub_zero]
    have hvalid : IsUtf8 (bs.take n) ↔ String.Pos.Raw.IsValid s ⟨n⟩ := by
      rw [String.Pos.Raw.isValid_iff_isValidUTF8_extract_zero]
      show _ ↔ _ ∧ (s.toByteArray.extract 0 n).IsValidUTF8
      rw [hfront]
      exact ⟨fun hutf8 => ⟨Nat.le_of_lt hn, hutf8⟩, fun hutf8 => hutf8.2⟩
    have hbyte : s.getUTF8Byte ⟨n⟩ hend = bs[n] := rfl
    have hne : (⟨n⟩ : String.Pos.Raw) ≠ s.rawEndPos := by
      intro heq
      have hlen : n = bs.length := congrArg String.Pos.Raw.byteIdx heq
      omega
    rw [hvalid, String.Pos.Raw.isValid_iff_isUTF8FirstByte, CutsBetween, List.getElem?_eq_getElem hn]
    constructor
    · rintro (heq | ⟨_, hfirst⟩) b hb
      · exact absurd heq hne
      · obtain rfl := Option.some.inj hb
        exact hfirst
    · intro hall
      exact .inr ⟨hend, hall _ rfl⟩
  · have hle := not_lt.mp hn
    rw [List.take_of_length_le hle]
    exact iff_of_true h (cutsBetween_of_length_le hle)

end LightNet.Foundation
