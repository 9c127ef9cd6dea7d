/-
Counts as binary64 numbers. A number of at least one has a mantissa of 53
bits and an exponent of at least -52 (`AtLeastOne`). Rounding keeps it so
(`atLeastOne_roundWithAccuracy`), and so do packing, addition and
multiplication, so a count that is not zero becomes a number of at least one
however large it is, and a sum of counts is zero only if each of them is
(`counts_eq_zero_iff`).
-/
import Mathlib

namespace Spreadsheet

open Float.Model Float.Model.UnpackedFloat

/-! ## Rounding -/

/-- A number of at least one, as it is once rounded: infinite, or with a full mantissa. -/
def AtLeastOne : UnpackedFloat → Prop
  | .infinity .positive => True
  | .finite .positive mantissa exponent _ =>
    (2 ^ 52 ≤ mantissa ∧ mantissa < 2 ^ 53) ∧ -52 ≤ exponent
  | .infinity .negative | .notANumber | .zero _ | .finite .negative _ _ _ => False

theorem mantissa_shiftRight (em : ExtendedMantissa) (k : Nat) :
    (em >>> k).mantissa = em.mantissa / 2 ^ k := by
  induction k with
  | zero => exact (Nat.div_one _).symm
  | succ k ih =>
    change (em >>> k).mantissa / 2 = _
    rw [ih, Nat.div_div_eq_div_mul, Nat.pow_succ]

theorem mantissa_le_roundedMantissa (em : ExtendedMantissa) :
    em.mantissa ≤ em.roundedMantissa := by
  obtain ⟨m, round, sticky⟩ := em
  cases round <;> cases sticky <;>
    simp [ExtendedMantissa.roundedMantissa, ExtendedMantissa.accuracy, Accuracy.roundToNearestEven]

theorem mantissa_div_bounds {m : Nat} (h : 52 ≤ m.log2) :
    2 ^ 52 ≤ m / 2 ^ (m.log2 - 52) ∧ m / 2 ^ (m.log2 - 52) < 2 ^ 53 := by
  have hm : m ≠ 0 := by
    rintro rfl
    simp at h
  have hpos : 0 < 2 ^ (m.log2 - 52) := Nat.two_pow_pos _
  constructor
  · rw [Nat.le_div_iff_mul_le hpos, ← Nat.pow_add, Nat.add_sub_cancel' h]
    exact Nat.log2_self_le hm
  · rw [Nat.div_lt_iff_lt_mul hpos, ← Nat.pow_add]
    have hlog : 53 + (m.log2 - 52) = m.log2 + 1 := by omega
    rw [hlog]
    exact Nat.lt_log2_self

/-- A long mantissa of a number of at least one is shortened to 53 bits. -/
theorem shiftToTargetExponent_bounds {m : Nat} {e : Int} (hm : 52 ≤ m.log2)
    (he : 0 ≤ m.log2 + e) :
    let shifted := shiftToTargetExponent Format.binary64 m e .exact
    (2 ^ 52 ≤ shifted.1.mantissa ∧ shifted.1.mantissa < 2 ^ 53) ∧ -52 ≤ shifted.2 := by
  have htarget : (Format.binary64.targetExponent (totalExponent m e) - e).toNat = m.log2 - 52 := by
    simp only [Format.targetExponent, totalExponent, Format.mantissaBits, Format.minExponent]
    omega
  intro shifted
  have hshifted : shifted = (ExtendedMantissa.mk m false false >>> (m.log2 - 52),
      e + ((m.log2 - 52 : Nat) : Int)) := by
    simp only [shifted, shiftToTargetExponent, shiftToExponent, htarget]
    rfl
  rw [hshifted, mantissa_shiftRight]
  exact ⟨mantissa_div_bounds hm, by simp only; omega⟩

/-- **Rounding a number of at least one gives one**, from a mantissa that is long enough. -/
theorem atLeastOne_roundWithAccuracy {m : Nat} {e : Int} (hm : 52 ≤ m.log2)
    (he : 0 ≤ m.log2 + e) : AtLeastOne (roundWithAccuracy Format.binary64 .positive m e .exact) := by
  obtain ⟨⟨hfirst, -⟩, hexponent⟩ := shiftToTargetExponent_bounds hm he
  unfold roundWithAccuracy
  -- rounding up may have made the mantissa too long again, so it is shortened a second time
  generalize shiftToTargetExponent Format.binary64 m e .exact = first at hfirst hexponent
  have hrounded := hfirst.trans (mantissa_le_roundedMantissa first.1)
  have hlog : 52 ≤ first.1.roundedMantissa.log2 :=
    (Nat.le_log2 (by omega)).2 hrounded
  obtain ⟨hsecond, hexponent⟩ := shiftToTargetExponent_bounds (e := first.2) hlog (by omega)
  simp only
  rw [dif_neg (by omega)]
  exact ⟨hsecond, hexponent⟩

theorem log2_add_le_log2_shiftLeft {m : Nat} (hm : m ≠ 0) (k : Nat) :
    m.log2 + k ≤ (m <<< k).log2 := by
  rw [Nat.shiftLeft_eq, Nat.le_log2 (Nat.mul_ne_zero hm (Nat.two_pow_pos k).ne'), Nat.pow_add]
  exact Nat.mul_le_mul_right _ (Nat.log2_self_le hm)

theorem atLeastOne_round {m : Nat} {e : Int} (hm : m ≠ 0) (he : 0 ≤ m.log2 + e) :
    AtLeastOne (UnpackedFloat.round Format.binary64 .positive m e) := by
  have htarget : Format.binary64.targetExponent (totalExponent m e) = m.log2 + e - 52 := by
    simp only [Format.targetExponent, totalExponent, Format.mantissaBits, Format.minExponent]
    omega
  simp only [UnpackedFloat.round, decreaseExponent, htarget]
  have hlog := log2_add_le_log2_shiftLeft hm (e - (m.log2 + e - 52)).toNat
  exact atLeastOne_roundWithAccuracy (by omega) (by omega)

theorem atLeastOne_normalize {m : Nat} {e : Int} {zeroSign : Sign} (hm : m ≠ 0)
    (he : 0 ≤ m.log2 + e) :
    AtLeastOne (UnpackedFloat.normalize Format.binary64 m e zeroSign) := by
  have hcompare : compare (m : Int) 0 = .gt := Int.compare_eq_gt.2 (by omega)
  rw [UnpackedFloat.normalize, hcompare]
  exact atLeastOne_round hm he

/-! ## Packing -/

theorem unpackSign_packComponents {spec : Format} (sign : Sign) (exponent : BitVec spec.exponentBits)
    (mantissa : BitVec spec.mantissaBitsWithoutImplicit) :
    unpackSign (packComponents spec sign exponent mantissa) = sign.toBitVec := by
  ext i hi
  obtain rfl : i = 0 := by omega
  simp [unpackSign, packComponents, BitVec.getLsbD_append, BitVec.getElem_append]

theorem toNat_leading_append (mantissa : BitVec 52) :
    (1#1 ++ mantissa).toNat = 2 ^ 52 + mantissa.toNat := by
  rw [BitVec.toNat_append, ← Nat.shiftLeft_add_eq_or_of_lt mantissa.isLt]
  rfl

theorem atLeastOne_unpack {biased : Nat} (h : 1023 ≤ biased) (h' : biased < 2047)
    (mantissa : BitVec 52) : AtLeastOne (UnpackedFloat.unpack Format.binary64
      (packComponents Format.binary64 .positive (BitVec.ofNat 11 biased) mantissa)) := by
  have hexponent : (BitVec.ofNat 11 biased).toNat = biased :=
    (BitVec.toNat_ofNat biased 11).trans (Nat.mod_eq_of_lt (by omega))
  have hne : ∀ v : BitVec 11, v.toNat ≠ biased → BitVec.ofNat 11 biased ≠ v := by
    rintro v hv rfl
    exact hv hexponent
  rw [UnpackedFloat.unpack]
  simp only [unpackExponent_packComponents, unpackMantissa_packComponents,
    unpackSign_packComponents]
  rw [if_neg (hne _ (by simp; omega)), if_neg (hne _ (by simp; omega))]
  have := mantissa.isLt
  refine ⟨?_, ?_⟩
  · rw [toNat_leading_append]
    omega
  · rw [hexponent]
    simp only [Format.exponentBias]
    omega

/-- **A number of at least one is still one when it has been packed**, if only as infinity. -/
theorem AtLeastOne.unpack_pack {x : UnpackedFloat} (h : AtLeastOne x) :
    AtLeastOne (Float.Model.pack x).unpack := by
  have hinfinity : AtLeastOne
      (UnpackedFloat.unpack Format.binary64 (packedInfinity Format.binary64 .positive)) := trivial
  match x, h with
  | .infinity .positive, _ => exact hinfinity
  | .finite .positive m e hpos, ⟨hm, he⟩ =>
    have hlog : m.log2 + 1 = 53 := by rw [(Nat.log2_eq_iff hpos.ne').2 hm]
    change AtLeastOne (UnpackedFloat.unpack Format.binary64
      (UnpackedFloat.pack Format.binary64 (.finite .positive m e hpos)))
    simp only [UnpackedFloat.pack, Format.mantissaBits, Format.exponentBias, hlog, if_true]
    split
    · exact hinfinity
    · exact atLeastOne_unpack (by omega) (by omega) _

/-! ## Operations -/

theorem AtLeastOne.add {x y : UnpackedFloat} (hx : AtLeastOne x) (hy : AtLeastOne y) :
    AtLeastOne (UnpackedFloat.add Format.binary64 x y) := by
  match x, y, hx, hy with
  | .infinity .positive, .infinity .positive, h, _ => exact h
  | .infinity .positive, .finite .positive _ _ _, h, _ => exact h
  | .finite .positive _ _ _, .infinity .positive, _, h => exact h
  | .finite .positive m e _, .finite .positive m' e' _, ⟨hm, he⟩, ⟨hm', he'⟩ =>
    have hle : m ≤ m <<< (e - min e e').toNat + m' <<< (e' - min e e').toNat := by
      rw [Nat.shiftLeft_eq]
      exact (Nat.le_mul_of_pos_right m (Nat.two_pow_pos _)).trans (Nat.le_add_right _ _)
    simp only [UnpackedFloat.add, decreaseExponent, Sign.apply, ← Int.natCast_add]
    generalize m <<< (e - min e e').toNat + m' <<< (e' - min e e').toNat = sum at hle ⊢
    have hsum : sum ≠ 0 := by omega
    have hlog : 52 ≤ sum.log2 := (Nat.le_log2 hsum).2 (hm.1.trans hle)
    exact atLeastOne_normalize hsum (by omega)

theorem AtLeastOne.add_zero {x : UnpackedFloat} (h : AtLeastOne x) {sign : Sign} :
    AtLeastOne (UnpackedFloat.add Format.binary64 x (.zero sign)) := by
  match x, h with
  | .infinity .positive, h => exact h
  | .finite .positive _ _ _, h => exact h

theorem AtLeastOne.zero_add {x : UnpackedFloat} (h : AtLeastOne x) {sign : Sign} :
    AtLeastOne (UnpackedFloat.add Format.binary64 (.zero sign) x) := by
  match x, h with
  | .infinity .positive, h => exact h
  | .finite .positive _ _ _, h => exact h

theorem AtLeastOne.mul {x y : UnpackedFloat} (hx : AtLeastOne x) (hy : AtLeastOne y) :
    AtLeastOne (UnpackedFloat.mul Format.binary64 x y) := by
  match x, y, hx, hy with
  | .infinity .positive, .infinity .positive, h, _ => exact h
  | .infinity .positive, .finite .positive _ _ _, h, _ => exact h
  | .finite .positive _ _ _, .infinity .positive, _, h => exact h
  | .finite .positive m e _, .finite .positive m' e' _, ⟨hm, he⟩, ⟨hm', he'⟩ =>
    have hlog : 104 ≤ (m * m').log2 :=
      (Nat.le_log2 (by positivity)).2 ((Nat.pow_add 2 52 52).trans_le (Nat.mul_le_mul hm.1 hm'.1))
    exact atLeastOne_roundWithAccuracy (by omega) (by omega)

/-! ## Counts -/

theorem atLeastOne_ofNat {n : Nat} (hn : n ≠ 0) :
    AtLeastOne (UnpackedFloat.ofNat Format.binary64 n) :=
  atLeastOne_normalize hn (by omega)

theorem atLeastOne_toFloat {n : UInt64} (hn : n ≠ 0) : AtLeastOne n.toFloat.toModel.unpack :=
  (atLeastOne_ofNat fun h => hn (UInt64.toNat_inj.1 h)).unpack_pack

theorem atLeastOne_ofScientific {n : Nat} (hn : n ≠ 0) :
    AtLeastOne (UnpackedFloat.ofScientific Format.binary64 n 0) := by
  have hlog := log2_add_le_log2_shiftLeft hn 53
  rw [UnpackedFloat.ofScientific, dif_neg hn, if_neg (by decide), if_neg (by simp),
    if_pos (by decide)]
  simp only [UnpackedFloat.mul, Format.mantissaBits, Int.toNat_zero, Nat.pow_zero, Nat.mul_one,
    Nat.reduceAdd]
  have hsign : Sign.positive * Sign.positive = Sign.positive := rfl
  rw [hsign]
  generalize n <<< 53 = m at hlog ⊢
  exact atLeastOne_roundWithAccuracy (by omega) (by omega)

/-- A count converts by way of a word if it is small, and else as the decimal number it is. -/
theorem atLeastOne_natToFloat {n : Nat} (hn : n ≠ 0) : AtLeastOne n.toFloat.toModel.unpack := by
  change AtLeastOne (Float.ofScientific n false 0).toModel.unpack
  rw [Float.ofScientific]
  split
  · rename_i hsmall
    have hne : n.toUInt64 ≠ 0 := fun h => hn (by
      have htoNat := UInt64.toNat_ofNat_of_lt' (n := n) (by simp only [UInt64.size]; omega)
      have hzero : n.toUInt64.toNat = 0 := congrArg UInt64.toNat h
      exact htoNat.symm.trans hzero)
    have hone : AtLeastOne (1 : Float).toModel.unpack := ⟨by decide, by decide⟩
    exact ((atLeastOne_toFloat hne).mul hone).unpack_pack
  · exact (atLeastOne_ofScientific hn).unpack_pack

theorem AtLeastOne.ne_zero {x : UnpackedFloat} (h : AtLeastOne x) :
    x.compare (.zero .positive) ≠ some .eq := by
  match x, h with
  | .infinity .positive, _ => exact nofun
  | .finite .positive _ _ _, _ => exact nofun

/-- **A sum of two counts is zero only if both are**: no count is so large that it is lost. -/
theorem counts_eq_zero_iff (k : Nat) (n : UInt64) :
    (k.toFloat + n.toFloat == 0) = true ↔ k = 0 ∧ n = 0 := by
  constructor
  · intro h
    by_contra hne
    have hsum : AtLeastOne (UnpackedFloat.add Format.binary64 k.toFloat.toModel.unpack
        n.toFloat.toModel.unpack) := by
      by_cases hk : k = 0
      · exact hk ▸ (atLeastOne_toFloat fun hn => hne ⟨hk, hn⟩).zero_add
      · by_cases hn : n = 0
        · exact hn ▸ (atLeastOne_natToFloat hk).add_zero
        · exact (atLeastOne_natToFloat hk).add (atLeastOne_toFloat hn)
    exact hsum.unpack_pack.ne_zero (beq_iff_eq.1 h)
  · rintro ⟨rfl, rfl⟩
    rfl

end Spreadsheet
