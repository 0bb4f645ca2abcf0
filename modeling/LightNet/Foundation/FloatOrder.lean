/-
# LightNet.Foundation.FloatOrder — the order of binary floats.

`rank` puts a float in a linear order, and the comparisons of floats that are not NaN are those of the
ranks.  A canonical float is what can be stored: packing and unpacking give it back.  Rounding does not
go past a canonical float, and so a difference of two positive floats is at most the first
(`sub_le`), also when it has been stored.
-/
import Mathlib

namespace LightNet.Foundation

open Float.Model (Format UnpackedFloat totalExponent)
open Float.Model.UnpackedFloat

/-! ## The order -/

/-- Where a number stands in the order: the sign and the infinities first, then exponent and
mantissa. -/
def rank : UnpackedFloat → ℤ ×ₗ ℤ ×ₗ ℤ
  | .infinity .negative => toLex (-2, toLex (0, 0))
  | .finite .negative m e _ => toLex (-1, toLex (-e, -m))
  | .notANumber => toLex (0, toLex (0, 0))
  | .zero _ => toLex (0, toLex (0, 0))
  | .finite .positive m e _ => toLex (1, toLex (e, m))
  | .infinity .positive => toLex (2, toLex (0, 0))

theorem rank_finite_le {m m₁ : ℕ} {e e₁ : ℤ} {hm : 0 < m} {hm₁ : 0 < m₁} (hee : e ≤ e₁)
    (hmm : e = e₁ → m ≤ m₁) : rank (.finite .positive m e hm) ≤ rank (.finite .positive m₁ e₁ hm₁) := by
  refine Prod.Lex.toLex_le_toLex.mpr (.inr ⟨rfl, ?_⟩)
  rcases Int.lt_or_eq_of_le hee with hlt | heq
  · exact Prod.Lex.toLex_le_toLex.mpr (.inl hlt)
  · exact Prod.Lex.toLex_le_toLex.mpr (.inr ⟨heq, Int.ofNat_le.mpr (hmm heq)⟩)

theorem compare_neg (a b : ℤ) : compare (-a) (-b) = (compare a b).swap := by
  rcases lt_trichotomy a b with h | h | h
  · rw [compare_lt_iff_lt.mpr h, compare_gt_iff_gt.mpr (neg_lt_neg h)]
    rfl
  · rw [h, compare_eq_iff_eq.mpr rfl, compare_eq_iff_eq.mpr rfl]
    rfl
  · rw [compare_gt_iff_gt.mpr h, compare_lt_iff_lt.mpr (neg_lt_neg h)]
    rfl

theorem compare_natCast (a b : ℕ) : compare (a : ℤ) (b : ℤ) = compare a b := by
  rcases lt_trichotomy a b with h | h | h
  · rw [compare_lt_iff_lt.mpr h, compare_lt_iff_lt.mpr (Int.ofNat_lt.mpr h)]
  · rw [h, compare_eq_iff_eq.mpr rfl, compare_eq_iff_eq.mpr rfl]
  · rw [compare_gt_iff_gt.mpr h, compare_gt_iff_gt.mpr (Int.ofNat_lt.mpr h)]

theorem compare_eq_rank {a b : UnpackedFloat} (ha : a.isNaN = false) (hb : b.isNaN = false) :
    a.compare b = some (compare (rank a) (rank b)) := by
  have hfinite : ∀ (s : ℤ) (e m e' m' : ℤ),
      compare (toLex (s, toLex (e, m)) : ℤ ×ₗ ℤ ×ₗ ℤ) (toLex (s, toLex (e', m')))
        = (compare e e').then (compare m m') := by
    intro s e m e' m'
    show (compare s s).then ((compare e e').then (compare m m')) = _
    rw [compare_eq_iff_eq.mpr rfl]
    rfl
  cases a with
  | notANumber => cases ha
  | infinity s =>
      cases b with
      | notANumber => cases hb
      | infinity s' => cases s <;> cases s' <;> rfl
      | zero s' => cases s <;> rfl
      | finite s' m' e' hm' => cases s <;> cases s' <;> rfl
  | zero s =>
      cases b with
      | notANumber => cases hb
      | infinity s' => cases s' <;> rfl
      | zero s' => rfl
      | finite s' m' e' hm' => cases s' <;> rfl
  | finite s m e hm =>
      cases b with
      | notANumber => cases hb
      | infinity s' => cases s <;> cases s' <;> rfl
      | zero s' => cases s <;> rfl
      | finite s' m' e' hm' =>
          cases s <;> cases s' <;> try rfl
          · rw [rank, rank, hfinite, compare_neg, compare_neg, compare_natCast, ← Ordering.swap_then]
            rfl
          · rw [rank, rank, hfinite, compare_natCast]
            rfl

theorem compare_of_isNaN {a b : UnpackedFloat} (h : a.isNaN = true ∨ b.isNaN = true) :
    a.compare b = none := by
  cases a with
  | notANumber => rfl
  | _ =>
      cases b with
      | notANumber => rfl
      | _ => simp only [isNaN, Bool.false_eq_true, or_self] at h

theorem compare_cases (a b : UnpackedFloat) :
    a.compare b = none ∧ (a.isNaN = true ∨ b.isNaN = true)
      ∨ a.compare b = some (compare (rank a) (rank b)) ∧ a.isNaN = false ∧ b.isNaN = false := by
  by_cases h : a.isNaN = true ∨ b.isNaN = true
  · exact .inl ⟨compare_of_isNaN h, h⟩
  · rw [not_or, Bool.not_eq_true, Bool.not_eq_true] at h
    exact .inr ⟨compare_eq_rank h.1 h.2, h⟩

/-- Numbers are ordered by their rank, and NaN is not compared. -/
theorem le_iff_rank {a b : UnpackedFloat} :
    a.le b = true ↔ a.isNaN = false ∧ b.isNaN = false ∧ rank a ≤ rank b := by
  obtain ⟨hnone, hnan⟩ | ⟨hsome, ha, hb⟩ := compare_cases a b
  · rw [UnpackedFloat.le, hnone]
    refine iff_of_false Bool.false_ne_true ?_
    rintro ⟨ha, hb, -⟩
    simp only [ha, hb, Bool.false_eq_true, or_self] at hnan
  · rw [UnpackedFloat.le, hsome, Option.any_some, ← Ordering.ne_gt_iff_isLE, compare_gt_iff_gt, not_lt]
    simp only [ha, hb, true_and]

theorem lt_iff_rank {a b : UnpackedFloat} :
    a.lt b = true ↔ a.isNaN = false ∧ b.isNaN = false ∧ rank a < rank b := by
  obtain ⟨hnone, hnan⟩ | ⟨hsome, ha, hb⟩ := compare_cases a b
  · rw [UnpackedFloat.lt, hnone]
    refine iff_of_false Bool.false_ne_true ?_
    rintro ⟨ha, hb, -⟩
    simp only [ha, hb, Bool.false_eq_true, or_self] at hnan
  · rw [UnpackedFloat.lt, hsome, beq_iff_eq, Option.some_inj, compare_lt_iff_lt]
    simp only [ha, hb, true_and]

/-! ## Bits -/

theorem minExponent_eq (spec : Format) :
    spec.minExponent = 1 - spec.exponentBias - spec.mantissaBitsWithoutImplicit := by
  have hone : 1 ≤ 2 ^ (spec.exponentBits - 1) := Nat.one_le_two_pow
  rw [Format.minExponent, Format.exponentBias, Format.mantissaBits]
  push_cast [Nat.cast_sub hone]
  ring

/-- The largest exponent field is the one of the infinities. -/
theorem two_pow_exponentBits (spec : Format) :
    2 ^ spec.exponentBits = 2 * spec.exponentBias + 2 := by
  have hone : 1 ≤ 2 ^ (spec.exponentBits - 1) := Nat.one_le_two_pow
  have hsplit : 2 ^ spec.exponentBits = 2 * 2 ^ (spec.exponentBits - 1) := by
    rw [← pow_succ', Nat.sub_add_cancel spec.he]
  rw [hsplit, Format.exponentBias]
  omega

/-- A float that has a bit pattern of its own. -/
def Canonical (spec : Format) : UnpackedFloat → Prop
  | .finite _ m e _ =>
      m < 2 ^ spec.mantissaBits ∧ spec.minExponent ≤ e
        ∧ (2 ^ spec.mantissaBitsWithoutImplicit ≤ m ∨ e = spec.minExponent)
        ∧ e + spec.mantissaBitsWithoutImplicit ≤ spec.exponentBias
  | _ => True

variable {spec : Format}

theorem canonical_zero (s : Sign) : Canonical spec (.zero s) := trivial

theorem toNat_allOnes : (-BitVec.ofNat spec.exponentBits 1).toNat = 2 * spec.exponentBias + 1 := by
  rw [BitVec.neg_one_eq_allOnes, BitVec.toNat_allOnes, two_pow_exponentBits]
  rfl

theorem toNat_implicit {n : ℕ} (v : BitVec n) : (1#1 ++ v).toNat = 2 ^ n + v.toNat := by
  rw [BitVec.toNat_append, ← Nat.shiftLeft_add_eq_or_of_lt v.isLt, Nat.shiftLeft_eq]
  simp only [BitVec.toNat_ofNat, Nat.mod_succ, one_mul]

theorem two_pow_mantissaBits (spec : Format) :
    2 ^ spec.mantissaBits = 2 * 2 ^ spec.mantissaBitsWithoutImplicit := by
  rw [Format.mantissaBits, Nat.add_comm, pow_succ']

/-- Every bit pattern is canonical. -/
theorem canonical_unpack (hbias : 0 < spec.exponentBias) (b : BitVec spec.numBits) :
    Canonical spec (unpack spec b) := by
  have hmin := minExponent_eq spec
  have hmant := (unpackMantissa b).isLt
  have hexp := (unpackExponent b).isLt
  have hbits := two_pow_mantissaBits spec
  have hcap := two_pow_exponentBits spec
  unfold unpack
  dsimp only
  split
  · split <;> trivial
  · rename_i hinf
    have hlast : (unpackExponent b).toNat ≠ 2 * spec.exponentBias + 1 := by
      rw [← toNat_allOnes]
      exact fun heq => hinf (BitVec.eq_of_toNat_eq heq)
    split
    · rename_i hsub
      split
      · trivial
      · rw [hsub]
        simp only [Canonical, BitVec.toNat_zero]
        refine ⟨by omega, by push_cast; omega, .inr (by push_cast; omega), by push_cast; omega⟩
    · rename_i hnormal
      have hpos : (unpackExponent b).toNat ≠ 0 :=
        fun heq => hnormal (BitVec.eq_of_toNat_eq heq)
      simp only [Canonical, toNat_implicit]
      exact ⟨by omega, by omega, .inl (by omega), by omega⟩

theorem zero_ne_allOnes (hbias : 0 < spec.exponentBias) :
    BitVec.ofNat spec.exponentBits 0 ≠ -BitVec.ofNat spec.exponentBits 1 := by
  intro heq
  have hnat := congrArg BitVec.toNat heq
  rw [toNat_allOnes, BitVec.toNat_zero] at hnat
  omega

/-! ## Packing and unpacking -/

@[simp] theorem unpack_packedInfinity (s : Sign) :
    unpack spec (packedInfinity spec s) = .infinity s := by
  simp only [unpack, packedInfinity, unpackExponent_packComponents, unpackMantissa_packComponents,
    unpackSign_packComponents, Sign.ofBitVec_toBitVec, if_true]
  rfl

/-- What `pack` writes for a number of full precision. -/
theorem unpack_packComponents (s : Sign) {e : BitVec spec.exponentBits} (hinf : e ≠ -1#_)
    (hsub : e ≠ 0#_) (m : BitVec spec.mantissaBitsWithoutImplicit) :
    unpack spec (packComponents spec s e m)
      = .finite s (2 ^ spec.mantissaBitsWithoutImplicit + m.toNat)
          ((e.toNat : ℤ) - (spec.exponentBias + spec.mantissaBitsWithoutImplicit))
          (Nat.add_pos_left (Nat.two_pow_pos _) _) := by
  simp only [unpack, unpackExponent_packComponents, unpackMantissa_packComponents,
    unpackSign_packComponents, Sign.ofBitVec_toBitVec, if_neg hinf, if_neg hsub, toNat_implicit]

/-- What `pack` writes for a number below full precision. -/
theorem unpack_packComponents_zero (hbias : 0 < spec.exponentBias) (s : Sign)
    {m : BitVec spec.mantissaBitsWithoutImplicit} (hm : m ≠ 0#_) :
    unpack spec (packComponents spec s 0#_ m)
      = .finite s m.toNat spec.minExponent (Nat.pos_of_ne_zero fun h => hm (BitVec.eq_of_toNat_eq h)) := by
  have hexp : (((BitVec.ofNat spec.exponentBits 0).toNat : ℕ) : ℤ)
      - (spec.exponentBias + spec.mantissaBitsWithoutImplicit) + 1 = spec.minExponent := by
    rw [minExponent_eq, BitVec.toNat_zero]
    push_cast
    ring
  simp only [unpack, unpackExponent_packComponents, unpackMantissa_packComponents,
    unpackSign_packComponents, Sign.ofBitVec_toBitVec, if_neg (zero_ne_allOnes hbias), if_true,
    dif_neg hm, hexp]

/-- **Nothing is lost in a canonical float.** -/
theorem unpack_pack (hbias : 0 < spec.exponentBias) {f : UnpackedFloat} (hf : Canonical spec f) :
    unpack spec (pack spec f) = f := by
  cases f with
  | notANumber => exact unpack_packedNaN
  | infinity s => exact unpack_packedInfinity s
  | zero s => exact unpack_packedZero
  | finite s m e hm =>
      obtain ⟨hm', hmin, hfull, hmax⟩ := hf
      have hmineq := minExponent_eq spec
      have hcap := two_pow_exponentBits spec
      have hbits := two_pow_mantissaBits spec
      simp only [pack]
      generalize hbiased : (e + spec.exponentBias + spec.mantissaBitsWithoutImplicit).toNat = biased
      rw [if_neg (by omega)]
      by_cases hlarge : 2 ^ spec.mantissaBitsWithoutImplicit ≤ m
      · have hlog : m.log2 + 1 = spec.mantissaBits := by
          rw [Format.mantissaBits, Nat.add_comm 1]
          congr 1
          rw [Nat.log2_eq_iff hm.ne']
          exact ⟨hlarge, by rw [pow_succ']; omega⟩
        have hexp : (BitVec.ofNat spec.exponentBits biased).toNat = biased := by
          rw [BitVec.toNat_ofNat, Nat.mod_eq_of_lt (by omega)]
        have hinf : BitVec.ofNat spec.exponentBits biased ≠ -1#_ := by
          intro heq
          have hnat := congrArg BitVec.toNat heq
          rw [hexp, toNat_allOnes] at hnat
          omega
        have hsub : BitVec.ofNat spec.exponentBits biased ≠ 0#_ := by
          intro heq
          have hnat := congrArg BitVec.toNat heq
          rw [hexp, BitVec.toNat_zero] at hnat
          omega
        have hmant : 2 ^ spec.mantissaBitsWithoutImplicit
            + (BitVec.ofNat spec.mantissaBitsWithoutImplicit m).toNat = m := by
          rw [BitVec.toNat_ofNat, Nat.mod_eq_sub_mod hlarge, Nat.mod_eq_of_lt (by omega)]
          omega
        rw [if_pos hlog, unpack_packComponents s hinf hsub]
        congr 1
        omega
      · have hlog : m.log2 + 1 ≠ spec.mantissaBits := by
          have hlt := (Nat.log2_lt hm.ne').mpr (Nat.lt_of_not_le hlarge)
          rw [Format.mantissaBits]
          omega
        have hmant : (BitVec.ofNat spec.mantissaBitsWithoutImplicit m).toNat = m := by
          rw [BitVec.toNat_ofNat, Nat.mod_eq_of_lt (by omega)]
        have hne : BitVec.ofNat spec.mantissaBitsWithoutImplicit m ≠ 0#_ := by
          intro heq
          have hnat := congrArg BitVec.toNat heq
          rw [hmant, BitVec.toNat_zero] at hnat
          omega
        rw [if_neg hlog, unpack_packComponents_zero hbias s hne]
        congr 1
        omega

/-! ## Signs -/

/-- A number with this sign, zero and infinity included. -/
def Signed (s : Sign) : UnpackedFloat → Prop
  | .infinity s' => s' = s
  | .zero s' => s' = s
  | .finite s' _ _ _ => s' = s
  | .notANumber => False

theorem signed_finite (s : Sign) {m : ℕ} (e : ℤ) (hm : 0 < m) : Signed s (.finite s m e hm) := rfl

theorem signed_infinity (s : Sign) : Signed s (.infinity s) := rfl

theorem Signed.isNaN {s : Sign} {f : UnpackedFloat} (h : Signed s f) : f.isNaN = false := by
  cases f with
  | notANumber => exact h.elim
  | _ => rfl

theorem Signed.rank_nonneg {f : UnpackedFloat} (h : Signed .positive f) (s : Sign) :
    rank (.zero s) ≤ rank f := by
  cases f with
  | notANumber => exact h.elim
  | infinity s' =>
      obtain rfl : s' = .positive := h
      exact Prod.Lex.toLex_le_toLex.mpr (.inl (by decide))
  | zero s' => exact le_rfl
  | finite s' m e hm =>
      obtain rfl : s' = .positive := h
      exact Prod.Lex.toLex_le_toLex.mpr (.inl (show (0 : ℤ) < 1 by decide))

theorem Signed.rank_nonpos {f : UnpackedFloat} (h : Signed .negative f) (s : Sign) :
    rank f ≤ rank (.zero s) := by
  cases f with
  | notANumber => exact h.elim
  | infinity s' =>
      obtain rfl : s' = .negative := h
      exact Prod.Lex.toLex_le_toLex.mpr (.inl (by decide))
  | zero s' => exact le_rfl
  | finite s' m e hm =>
      obtain rfl : s' = .negative := h
      exact Prod.Lex.toLex_le_toLex.mpr (.inl (show (-1 : ℤ) < 0 by decide))

theorem signed_unpack_packComponents (s : Sign) {e : BitVec spec.exponentBits} (hinf : e ≠ -1#_)
    (m : BitVec spec.mantissaBitsWithoutImplicit) :
    Signed s (unpack spec (packComponents spec s e m)) := by
  simp only [unpack, unpackExponent_packComponents, unpackMantissa_packComponents,
    unpackSign_packComponents, Sign.ofBitVec_toBitVec, if_neg hinf]
  split
  · split <;> rfl
  · rfl

/-- Packing keeps the sign, also of what is too large. -/
theorem Signed.unpack_pack (hbias : 0 < spec.exponentBias) {s : Sign} {f : UnpackedFloat}
    (h : Signed s f) : Signed s (unpack spec (pack spec f)) := by
  cases f with
  | notANumber => exact h.elim
  | infinity s' =>
      rw [show pack spec (.infinity s') = packedInfinity spec s' from rfl, unpack_packedInfinity]
      exact h
  | zero s' =>
      rw [show pack spec (.zero s') = packedZero spec s' from rfl, unpack_packedZero]
      exact h
  | finite s' m e hm =>
      obtain rfl : s' = s := h
      simp only [pack]
      generalize (e + spec.exponentBias + spec.mantissaBitsWithoutImplicit).toNat = biased
      split
      · rw [unpack_packedInfinity]
        rfl
      · rename_i hfits
        have hinf : BitVec.ofNat spec.exponentBits biased ≠ -1#_ := by
          intro heq
          have hcap := two_pow_exponentBits spec
          have hnat := congrArg BitVec.toNat heq
          rw [BitVec.toNat_ofNat, Nat.mod_eq_of_lt (by omega), toNat_allOnes] at hnat
          omega
        split
        · exact signed_unpack_packComponents s' hinf _
        · exact signed_unpack_packComponents s' (zero_ne_allOnes hbias) _

theorem signed_roundWithAccuracy (s : Sign) (m : ℕ) (e : ℤ) (acc : Accuracy) :
    Signed s (roundWithAccuracy spec s m e acc) := by
  unfold roundWithAccuracy
  dsimp only
  split <;> rfl

/-! ## What keeps the sign -/

theorem signed_round (s : Sign) (m : ℕ) (e : ℤ) : Signed s (UnpackedFloat.round spec s m e) :=
  signed_roundWithAccuracy s _ _ _

theorem signed_normalize {m : ℤ} (hm : 0 ≤ m) (e : ℤ) :
    Signed .positive (UnpackedFloat.normalize spec m e .positive) := by
  unfold UnpackedFloat.normalize
  split
  · rename_i hneg
    have := compare_lt_iff_lt.mp hneg
    omega
  · rfl
  · exact signed_round _ _ _

/-- A number at least zero by one above zero. -/
theorem Signed.div {f : UnpackedFloat} (hf : Signed .positive f) {m : ℕ} (e : ℤ) (hm : 0 < m) :
    Signed .positive (UnpackedFloat.div spec f (.finite .positive m e hm)) := by
  cases f with
  | notANumber => exact hf.elim
  | infinity s =>
      obtain rfl : s = .positive := hf
      exact signed_infinity _
  | zero s =>
      obtain rfl : s = .positive := hf
      exact rfl
  | finite s m' e' hm' =>
      obtain rfl : s = .positive := hf
      exact signed_roundWithAccuracy _ _ _ _

theorem Signed.mul {f : UnpackedFloat} (hf : Signed .positive f) {m : ℕ} (e : ℤ) (hm : 0 < m) :
    Signed .positive (UnpackedFloat.mul spec f (.finite .positive m e hm)) := by
  cases f with
  | notANumber => exact hf.elim
  | infinity s =>
      obtain rfl : s = .positive := hf
      exact signed_infinity _
  | zero s =>
      obtain rfl : s = .positive := hf
      exact rfl
  | finite s m' e' hm' =>
      obtain rfl : s = .positive := hf
      exact signed_roundWithAccuracy _ _ _ _

theorem signed_ofScientific (m : ℕ) (e : ℤ) : Signed .positive (ofScientific spec m e) := by
  unfold ofScientific
  split
  · rfl
  split
  · exact signed_infinity _
  split
  · rfl
  split
  · exact (signed_finite .positive _ _).mul _ _
  · exact (signed_finite .positive _ _).div _ _

/-! ## Rounding -/

/-- After a shift the residual bits tell whether something has been cut off. -/
theorem shiftRight_spec (m n : ℕ) :
    let em := ExtendedMantissa.ofMantissaAndAccuracy m .exact >>> n
    em.mantissa = m / 2 ^ n
      ∧ ((em.roundBit || em.stickyBit) = true → em.mantissa * 2 ^ n < m) := by
  induction n with
  | zero => exact ⟨(Nat.div_one m).symm, fun h => absurd h Bool.false_ne_true⟩
  | succ n ih =>
      dsimp only at ih ⊢
      have hstep : ExtendedMantissa.ofMantissaAndAccuracy m .exact >>> (n + 1)
          = (ExtendedMantissa.ofMantissaAndAccuracy m .exact >>> n).shiftRightOne := rfl
      rw [hstep]
      generalize ExtendedMantissa.ofMantissaAndAccuracy m .exact >>> n = em at ih ⊢
      obtain ⟨hmant, hcut⟩ := ih
      have hpow : em.mantissa / 2 * 2 ^ (n + 1) = em.mantissa / 2 * 2 * 2 ^ n := by
        rw [pow_succ']
        ring
      constructor
      · show em.mantissa / 2 = _
        rw [hmant, Nat.div_div_eq_div_mul, pow_succ]
      · intro hbits
        have hbits : (em.mantissa % 2 != 0 || (em.roundBit || em.stickyBit)) = true := hbits
        show em.mantissa / 2 * 2 ^ (n + 1) < m
        rw [hpow]
        rcases Bool.or_eq_true_iff.mp hbits with hodd | hlow
        · -- the bit that is cut off now
          have hlt : em.mantissa / 2 * 2 < em.mantissa := by
            have := bne_iff_ne.mp hodd
            omega
          calc em.mantissa / 2 * 2 * 2 ^ n < em.mantissa * 2 ^ n :=
                Nat.mul_lt_mul_of_pos_right hlt (Nat.two_pow_pos n)
            _ ≤ m := by
                rw [hmant]
                exact Nat.div_mul_le_self m (2 ^ n)
        · calc em.mantissa / 2 * 2 * 2 ^ n ≤ em.mantissa * 2 ^ n :=
                Nat.mul_le_mul_right _ (Nat.div_mul_le_self _ 2)
            _ < m := hcut hlow

/-- Rounding goes up by one at most, and only where something has been cut off. -/
theorem roundedMantissa_cases (em : ExtendedMantissa) :
    em.roundedMantissa = em.mantissa
      ∨ em.roundedMantissa = em.mantissa + 1 ∧ (em.roundBit || em.stickyBit) = true := by
  obtain ⟨m, r, s⟩ := em
  cases r <;> cases s
  · exact .inl rfl
  · exact .inl rfl
  · rcases Nat.mod_two_eq_zero_or_one m with heven | hodd
    · exact .inl (show m + m % 2 = m by omega)
    · exact .inr ⟨show m + m % 2 = m + 1 by omega, rfl⟩
  · exact .inr ⟨rfl, rfl⟩

theorem shiftToTarget_of_le {m : ℕ} {e t : ℤ} (ht : spec.targetExponent (totalExponent m e) = t)
    (he : e ≤ t) :
    shiftToTargetExponent spec m e .exact
      = (ExtendedMantissa.ofMantissaAndAccuracy m .exact >>> (t - e).toNat, t) := by
  simp only [shiftToTargetExponent, shiftToExponent, ht]
  congr 1
  omega

/-- A mantissa that fits is not shifted again. -/
theorem shiftToTarget_of_fits {m : ℕ} {e : ℤ} (hm : m < 2 ^ spec.mantissaBits)
    (hmin : spec.minExponent ≤ e) :
    shiftToTargetExponent spec m e .exact = (ExtendedMantissa.ofMantissaAndAccuracy m .exact, e) := by
  have hlog : m.log2 < spec.mantissaBits := by
    rcases Nat.eq_zero_or_pos m with rfl | hpos
    · rw [Format.mantissaBits]
      show 0 < _
      omega
    · exact (Nat.log2_lt hpos.ne').mpr hm
  have ht : spec.targetExponent (totalExponent m e) ≤ e := by
    rw [Format.targetExponent, totalExponent]
    omega
  simp only [shiftToTargetExponent, shiftToExponent]
  rw [show (spec.targetExponent (totalExponent m e) - e).toNat = 0 by omega]
  simp only [Int.ofNat_zero, Int.add_zero]
  rfl

/-- A mantissa that has overflowed by rounding is halved. -/
theorem shiftToTarget_of_carry {e : ℤ} (hmin : spec.minExponent ≤ e) :
    shiftToTargetExponent spec (2 ^ spec.mantissaBits) e .exact
      = (ExtendedMantissa.ofMantissaAndAccuracy (2 ^ spec.mantissaBits) .exact >>> 1, e + 1) := by
  have ht : spec.targetExponent (totalExponent (2 ^ spec.mantissaBits) e) = e + 1 := by
    rw [Format.targetExponent, totalExponent, Nat.log2_two_pow]
    omega
  rw [shiftToTarget_of_le ht (by omega)]
  rw [show (e + 1 - e).toNat = 1 by omega]

/-! ## The exponent -/

theorem targetExponent_eq (m : ℕ) (e : ℤ) :
    spec.targetExponent (totalExponent m e)
      = max ((m.log2 : ℤ) + e - spec.mantissaBitsWithoutImplicit) spec.minExponent := by
  rw [Format.targetExponent, totalExponent, Format.mantissaBits]
  push_cast
  congr 1
  ring

/-- The exponent that is aimed at is at most the one of a bound. -/
theorem targetExponent_le {m m₁ : ℕ} {e e₁ : ℤ} (hm : 0 < m) (hbits₁ : m₁ < 2 ^ spec.mantissaBits)
    (hmin₁ : spec.minExponent ≤ e₁) (hee : e ≤ e₁) (hle : m ≤ m₁ * 2 ^ (e₁ - e).toNat) :
    spec.targetExponent (totalExponent m e) ≤ e₁ := by
  have hlog : m.log2 < spec.mantissaBits + (e₁ - e).toNat := by
    rw [Nat.log2_lt hm.ne', pow_add]
    calc m ≤ m₁ * 2 ^ (e₁ - e).toNat := hle
      _ < 2 ^ spec.mantissaBits * 2 ^ (e₁ - e).toNat :=
          Nat.mul_lt_mul_of_pos_right hbits₁ (Nat.two_pow_pos _)
  rw [Format.mantissaBits] at hlog
  rw [targetExponent_eq]
  omega

/-- The mantissa that is rounded to: it overflows by one at most, it keeps below a bound that the
number keeps below, and it is a full one unless the exponent is the least. -/
theorem roundedMantissa_spec {m : ℕ} {e t : ℤ} (hm : 0 < m)
    (ht : spec.targetExponent (totalExponent m e) = t) (he : e ≤ t) :
    let r := (ExtendedMantissa.ofMantissaAndAccuracy m .exact >>> (t - e).toNat).roundedMantissa
    r ≤ 2 ^ spec.mantissaBits
      ∧ (∀ m₁, m ≤ m₁ * 2 ^ (t - e).toNat → r ≤ m₁)
      ∧ (t ≠ spec.minExponent → 2 ^ spec.mantissaBitsWithoutImplicit ≤ r) := by
  obtain ⟨hmant, hcut⟩ := shiftRight_spec m (t - e).toNat
  have hround := roundedMantissa_cases
    (ExtendedMantissa.ofMantissaAndAccuracy m .exact >>> (t - e).toNat)
  generalize ExtendedMantissa.ofMantissaAndAccuracy m .exact >>> (t - e).toNat = em
    at hmant hcut hround ⊢
  rw [targetExponent_eq] at ht
  have hpos := Nat.two_pow_pos (t - e).toNat
  refine ⟨?_, ?_, ?_⟩
  · have hlt : em.mantissa < 2 ^ spec.mantissaBits := by
      rw [hmant, Nat.div_lt_iff_lt_mul hpos, ← pow_add, ← Nat.log2_lt hm.ne', Format.mantissaBits]
      omega
    omega
  · intro m₁ hle
    rcases hround with heq | ⟨heq, hbit⟩
    · rw [heq, hmant]
      exact Nat.div_le_of_le_mul (by rwa [Nat.mul_comm])
    · have hlt : em.mantissa < m₁ := Nat.lt_of_mul_lt_mul_right ((hcut hbit).trans_le hle)
      omega
  · intro hne
    have hfull : 2 ^ spec.mantissaBitsWithoutImplicit ≤ em.mantissa := by
      rw [hmant, Nat.le_div_iff_mul_le hpos, ← pow_add, ← Nat.le_log2 hm.ne']
      omega
    omega

/-! ## Rounding keeps the order -/

/-- **Rounding does not go past a float.** A positive number that is at most a canonical one is still
so when it has been rounded. -/
theorem roundWithAccuracy_le {m m₁ : ℕ} {e e₁ : ℤ} (hm : 0 < m) (hm₁ : 0 < m₁)
    (he : e ≤ spec.targetExponent (totalExponent m e))
    (hcanon : Canonical spec (.finite .positive m₁ e₁ hm₁)) (hee : e ≤ e₁)
    (hle : m ≤ m₁ * 2 ^ (e₁ - e).toNat) :
    Canonical spec (roundWithAccuracy spec .positive m e .exact)
      ∧ rank (roundWithAccuracy spec .positive m e .exact) ≤ rank (.finite .positive m₁ e₁ hm₁) := by
  obtain ⟨hbits₁, hmin₁, hfull₁, hmax₁⟩ := hcanon
  have hbits := two_pow_mantissaBits spec
  have hte := targetExponent_le hm hbits₁ hmin₁ hee hle
  have hmin : spec.minExponent ≤ spec.targetExponent (totalExponent m e) := by
    rw [targetExponent_eq]
    exact le_max_right _ _
  generalize ht : spec.targetExponent (totalExponent m e) = t at he hte hmin
  obtain ⟨hup, hbound, hnormal⟩ := roundedMantissa_spec hm ht he
  unfold roundWithAccuracy
  rw [shiftToTarget_of_le ht he]
  dsimp only at hup hbound hnormal ⊢
  generalize (ExtendedMantissa.ofMantissaAndAccuracy m .exact >>> (t - e).toNat).roundedMantissa = r
    at hup hbound hnormal ⊢
  have hsame : t = e₁ → r ≤ m₁ := by
    rintro rfl
    exact hbound m₁ hle
  rcases Nat.lt_or_eq_of_le hup with hfits | rfl
  · have hlast := shiftToTarget_of_fits hfits hmin
    split
    · exact ⟨trivial, (signed_finite .positive e₁ hm₁).rank_nonneg _⟩
    · simp only [hlast, ExtendedMantissa.ofMantissaAndAccuracy]
      refine ⟨⟨hfits, hmin, ?_, by omega⟩, rank_finite_le hte hsame⟩
      by_cases hsub : t = spec.minExponent
      · exact .inr hsub
      · exact .inl (hnormal hsub)
  · -- the mantissa has overflowed, so the bound has a larger exponent
    have hlt : t < e₁ := by
      refine lt_of_le_of_ne hte fun heq => ?_
      have := hsame heq
      omega
    have hhalf : (ExtendedMantissa.ofMantissaAndAccuracy (2 ^ spec.mantissaBits) .exact >>> 1).mantissa
        = 2 ^ spec.mantissaBitsWithoutImplicit := by
      rw [(shiftRight_spec _ 1).1, hbits]
      omega
    have hlast := shiftToTarget_of_carry hmin
    have hone := Nat.two_pow_pos spec.mantissaBitsWithoutImplicit
    split
    · exact ⟨trivial, (signed_finite .positive e₁ hm₁).rank_nonneg _⟩
    · simp only [hlast, hhalf]
      refine ⟨⟨by omega, by omega, .inl le_rfl, by omega⟩,
        rank_finite_le (Int.add_one_le_of_lt hlt) fun heq => ?_⟩
      exact hfull₁.resolve_right (by omega)

theorem round_le {m m₁ : ℕ} {e e₁ : ℤ} (hm : 0 < m) (hm₁ : 0 < m₁)
    (hcanon : Canonical spec (.finite .positive m₁ e₁ hm₁)) (hee : e ≤ e₁)
    (hle : m ≤ m₁ * 2 ^ (e₁ - e).toNat) :
    Canonical spec (UnpackedFloat.round spec .positive m e)
      ∧ rank (UnpackedFloat.round spec .positive m e) ≤ rank (.finite .positive m₁ e₁ hm₁) := by
  unfold UnpackedFloat.round
  generalize ht : spec.targetExponent (totalExponent m e) = t
  dsimp only [decreaseExponent]
  have hlog : (m <<< (e - t).toNat).log2 = m.log2 + (e - t).toNat := by
    have hpos := Nat.two_pow_pos (e - t).toNat
    rw [Nat.shiftLeft_eq, Nat.log2_eq_iff (Nat.mul_pos hm hpos).ne', Nat.add_right_comm, pow_add,
      pow_add]
    exact ⟨Nat.mul_le_mul_right _ (Nat.log2_self_le hm.ne'),
      Nat.mul_lt_mul_of_pos_right Nat.lt_log2_self hpos⟩
  have ht' : spec.targetExponent (totalExponent (m <<< (e - t).toNat) (e - (e - t).toNat)) = t := by
    refine Eq.trans ?_ ht
    congr 1
    rw [totalExponent, totalExponent, hlog]
    push_cast
    ring
  apply roundWithAccuracy_le
  · rw [Nat.shiftLeft_eq]
    exact Nat.mul_pos hm (Nat.two_pow_pos _)
  · rw [ht']
    omega
  · exact hcanon
  · omega
  · have hsplit : (e₁ - (e - ((e - t).toNat : ℤ))).toNat = (e₁ - e).toNat + (e - t).toNat := by
      omega
    rw [hsplit, pow_add, ← Nat.mul_assoc, Nat.shiftLeft_eq]
    exact Nat.mul_le_mul_right _ hle

/-! ## Results of arithmetic, as they are stored -/

/-- At least zero, and not NaN. -/
def Nonneg (f : UnpackedFloat) : Prop :=
  f.isNaN = false ∧ rank (.zero .positive) ≤ rank f

theorem nonneg_zero (s : Sign) : Nonneg (.zero s) := ⟨rfl, le_rfl⟩

theorem Signed.nonneg {f : UnpackedFloat} (h : Signed .positive f) : Nonneg f :=
  ⟨h.isNaN, h.rank_nonneg _⟩

theorem Nonneg.cases {f : UnpackedFloat} (h : Nonneg f) :
    (∃ s, f = .zero s) ∨ Signed .positive f := by
  obtain ⟨hnum, hrank⟩ := h
  cases f with
  | notANumber => cases hnum
  | infinity s =>
      cases s with
      | positive => exact .inr rfl
      | negative =>
          rcases Prod.Lex.toLex_le_toLex.mp hrank with hlt | ⟨heq, -⟩
          · exact absurd hlt (by decide)
          · exact absurd heq (by decide)
  | zero s => exact .inl ⟨s, rfl⟩
  | finite s m e hm =>
      cases s with
      | positive => exact .inr rfl
      | negative =>
          rcases Prod.Lex.toLex_le_toLex.mp hrank with hlt | ⟨heq, -⟩
          · exact absurd hlt (show ¬(0 : ℤ) < -1 by decide)
          · exact absurd heq (show (0 : ℤ) ≠ -1 by decide)

/-- What lies between zero and some number is positive and finite. -/
theorem finite_of_between {f g : UnpackedFloat} (hnum : f.isNaN = false)
    (hpos : rank (.zero .positive) < rank f) (hlt : rank f < rank g) :
    ∃ m e hm, f = .finite .positive m e hm := by
  obtain ⟨s, rfl⟩ | hsign := Nonneg.cases ⟨hnum, hpos.le⟩
  · exact absurd hpos (lt_irrefl _)
  · cases f with
    | notANumber => cases hnum
    | zero s => exact absurd hpos (lt_irrefl _)
    | finite s m e hm =>
        obtain rfl : s = .positive := hsign
        exact ⟨m, e, hm, rfl⟩
    | infinity s =>
        -- nothing is above the positive infinity
        obtain rfl : s = .positive := hsign
        have htop : rank g ≤ rank (.infinity .positive) := by
          cases g with
          | notANumber => exact Prod.Lex.toLex_le_toLex.mpr (.inl (by decide))
          | zero s => exact Prod.Lex.toLex_le_toLex.mpr (.inl (by decide))
          | infinity s => cases s <;> decide
          | finite s m e hm =>
              cases s
              · exact Prod.Lex.toLex_le_toLex.mpr (.inl (show (-1 : ℤ) < 2 by decide))
              · exact Prod.Lex.toLex_le_toLex.mpr (.inl (show (1 : ℤ) < 2 by decide))
        exact absurd hlt htop.not_gt

theorem Nonneg.div (hbias : 0 < spec.exponentBias) {f : UnpackedFloat} (hf : Nonneg f) {m : ℕ}
    (e : ℤ) (hm : 0 < m) :
    Nonneg (unpack spec (pack spec (UnpackedFloat.div spec f (.finite .positive m e hm)))) := by
  obtain ⟨s, rfl⟩ | hsign := hf.cases
  · have hdiv : UnpackedFloat.div spec (.zero s) (.finite .positive m e hm) = .zero (s / .positive) :=
      rfl
    rw [hdiv, unpack_pack hbias (canonical_zero _)]
    exact nonneg_zero _
  · exact ((hsign.div e hm).unpack_pack hbias).nonneg

theorem normalize_le (hbias : 0 < spec.exponentBias) {m : ℕ} {e : ℤ} (hm : 0 < m)
    (hcanon : Canonical spec (.finite .positive m e hm)) {d e' : ℤ} (hee : e' ≤ e)
    (hle : d ≤ (m * 2 ^ (e - e').toNat : ℕ)) :
    let f := unpack spec (pack spec (UnpackedFloat.normalize spec d e' .positive))
    f.isNaN = false ∧ rank f ≤ rank (.finite .positive m e hm) := by
  have hpos : rank (.zero .positive) ≤ rank (.finite .positive m e hm) :=
    (signed_finite .positive e hm).rank_nonneg _
  dsimp only [UnpackedFloat.normalize]
  split
  · have hround : Signed .negative (UnpackedFloat.round spec .negative (-d).toNat e') := signed_round _ _ _
    have hsign := hround.unpack_pack hbias
    exact ⟨hsign.isNaN, (hsign.rank_nonpos .positive).trans hpos⟩
  · rw [unpack_pack hbias (canonical_zero _)]
    exact ⟨rfl, hpos⟩
  · rename_i hgt
    have hgt : 0 < d := compare_gt_iff_gt.mp hgt
    obtain ⟨hc, hrank⟩ := round_le (m := d.toNat) (by omega) hm hcanon hee (by omega)
    rw [unpack_pack hbias hc]
    exact ⟨(signed_round _ _ _).isNaN, hrank⟩

/-- **To subtract does not increase.** -/
theorem sub_le (hbias : 0 < spec.exponentBias) {m : ℕ} {e : ℤ} (hm : 0 < m)
    (hcanon : Canonical spec (.finite .positive m e hm)) {g : UnpackedFloat} (hg : Nonneg g) :
    let f := unpack spec (pack spec (UnpackedFloat.sub spec (.finite .positive m e hm) g))
    f.isNaN = false ∧ rank f ≤ rank (.finite .positive m e hm) := by
  have hzero : ∀ s, let f := unpack spec (pack spec
        (UnpackedFloat.sub spec (.finite .positive m e hm) (.zero s)))
      f.isNaN = false ∧ rank f ≤ rank (.finite .positive m e hm) := by
    intro s
    show (unpack spec (pack spec (.finite .positive m e hm))).isNaN = false
      ∧ rank (unpack spec (pack spec (.finite .positive m e hm))) ≤ _
    rw [unpack_pack hbias hcanon]
    exact ⟨rfl, le_rfl⟩
  obtain ⟨s, rfl⟩ | hsign := hg.cases
  · exact hzero s
  · cases g with
    | notANumber => exact hsign.elim
    | zero s => exact hzero s
    | infinity s =>
        obtain rfl : s = .positive := hsign
        have hneg := (signed_infinity .negative).unpack_pack hbias
        exact ⟨hneg.isNaN, (hneg.rank_nonpos .positive).trans
          ((signed_finite .positive e hm).rank_nonneg _)⟩
    | finite s m' e' hm' =>
        obtain rfl : s = .positive := hsign
        refine normalize_le hbias hm hcanon (by omega) ?_
        rw [← Nat.shiftLeft_eq]
        exact sub_le_self _ (Int.natCast_nonneg (m' <<< (e' - min e e').toNat))

end LightNet.Foundation
