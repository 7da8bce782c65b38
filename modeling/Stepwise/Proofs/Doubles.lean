import Mathlib
import Stepwise.Number.Binary

/-!
# Whole numbers and doubles

The library reads doubles off their bits. Here that reading is tied to the arithmetic of doubles:
`ofFloat_eq` says that it is the unpacked form on which their operations are defined. Two facts come
from it. **Every whole number below `2 ^ 53` is a double, and one that is not below stays there when
it is rounded** (`ofInt_reads`), so that an index goes through a double unharmed. And a number that
is not less than one has a whole part of at least one (`Number.one_le_toIntIn`).

The first is for the paths of assignments: an index is a double in a script and a whole number in a
path, and a path that is written back has to name the same element (`Proofs/Lens`). Arrays have
fewer than `2 ^ 53` elements, but the index in a path may be any whole number, so it also has to be
known that a large one does not turn into a small one. The second is for the number of attempts of a
retry, which is compared with one as a double and counted as a whole number (`Proofs/RetrySteps`).

## The way from a number to its bits

A whole number is first normalised, then rounded to 53 bits, then packed into a word of 64 bits and
taken out of it again. Each of these has a section: rounding changes nothing for numbers that fit
and keeps large ones large, and packing changes nothing for `Regular` numbers, which all results
are. Numbers that are not whole and those near zero are left aside, except in the comparison with
one.
-/

namespace Stepwise

open Float.Model Float.Model.UnpackedFloat

namespace Binary

def isNegative : Sign → Bool
  | .negative => true
  | .positive => false

/-- What an unpacked double denotes. A zero keeps the exponent of the smallest numbers, as its bits
have it. -/
def ofUnpacked : UnpackedFloat → Binary
  | .notANumber => .nan
  | .infinity s => .infinite (isNegative s)
  | .zero s => .finite (isNegative s) 0 (-1074)
  | .finite s m e _ => .finite (isNegative s) m e

/-! ## The fields of a double -/

section

variable (b : BitVec Format.binary64.numBits)

theorem toNat_unpackMantissa : (unpackMantissa b).toNat = b.toNat % 0x10000000000000 := by
  simp [unpackMantissa, BitVec.extractLsb]

/-- The exponent stands above the 52 bits of the mantissa and has 11 bits, so the remainder cuts off
the sign. -/
theorem toNat_unpackExponent : (unpackExponent b).toNat = b.toNat / 0x10000000000000 % 2048 := by
  simp [unpackExponent, BitVec.extractLsb, Nat.shiftRight_eq_div_pow]

theorem isNegative_unpackSign :
    isNegative (Sign.ofBitVec (unpackSign b)) = (b.toNat / 0x8000000000000000 == 1) := by
  have hlt : b.toNat < 0x10000000000000000 := b.isLt
  have hsign : (unpackSign b).toNat = b.toNat / 0x8000000000000000 % 2 := by
    simp [unpackSign, BitVec.extractLsb, Nat.shiftRight_eq_div_pow]
  by_cases hzero : unpackSign b = 0#1
  · have hnat : (unpackSign b).toNat = 0 := by rw [hzero]; rfl
    have hne : b.toNat / 0x8000000000000000 ≠ 1 := by omega
    simp [Sign.ofBitVec, hzero, isNegative, hne]
  · have hnat : (unpackSign b).toNat ≠ 0 := fun h => hzero (BitVec.eq_of_toNat_eq h)
    have heq : b.toNat / 0x8000000000000000 = 1 := by omega
    simp [Sign.ofBitVec, hzero, isNegative, heq]

/-- The leading bit of a normal number is not stored. It is put back in front of the 52 bits that
are, where it counts for `2 ^ 52`. -/
theorem toNat_implicit (f : BitVec Format.binary64.mantissaBitsWithoutImplicit) :
    (1#1 ++ f).toNat = f.toNat + 0x10000000000000 := by
  rw [BitVec.toNat_append, ← Nat.shiftLeft_add_eq_or_of_lt f.isLt, Nat.add_comm]
  rfl

end

/-- **The reading of a double is its unpacked form.** Both split a word into its fields, one by
division and the other by extracting bits, and both take an exponent of all ones or of none
apart. -/
theorem ofFloat_eq (x : Float) : ofFloat x = ofUnpacked x.toModel.unpack := by
  obtain ⟨b, hb⟩ : ∃ b : BitVec Format.binary64.numBits, b = x.toModel.toBits.toBitVec :=
    ⟨_, rfl⟩
  have hnat : x.toBits.toNat = b.toNat := by rw [hb]; rfl
  have hunpack : x.toModel.unpack = UnpackedFloat.unpack Format.binary64 b := by rw [hb]; rfl
  -- the tests on bit fields, each as a test on numbers
  have hall : unpackExponent b = -1#_ ↔ b.toNat / 0x10000000000000 % 2048 = 2047 := by
    rw [← toNat_unpackExponent]
    exact BitVec.toNat_eq
  have hnone : unpackExponent b = 0#_ ↔ b.toNat / 0x10000000000000 % 2048 = 0 := by
    rw [← toNat_unpackExponent]
    exact BitVec.toNat_eq
  have hzero : unpackMantissa b = 0#_ ↔ b.toNat % 0x10000000000000 = 0 := by
    rw [← toNat_unpackMantissa]
    exact BitVec.toNat_eq
  have hbias : (Format.binary64.exponentBias : Int) + Format.binary64.mantissaBitsWithoutImplicit =
      1075 := rfl
  rw [hunpack, ofFloat, hnat, UnpackedFloat.unpack]
  dsimp only
  by_cases hexp : b.toNat / 0x10000000000000 % 2048 = 2047
  · by_cases hfrac : b.toNat % 0x10000000000000 = 0
    · simp [hexp, hfrac, hall.mpr hexp, hzero.mpr hfrac, ofUnpacked, isNegative_unpackSign]
    · simp [hexp, hfrac, hall.mpr hexp, mt hzero.mp hfrac, ofUnpacked]
  rw [if_neg hexp, if_neg (mt hall.mp hexp)]
  by_cases hsmall : b.toNat / 0x10000000000000 % 2048 = 0
  · rw [if_pos hsmall, if_pos (hnone.mpr hsmall)]
    by_cases hfrac : b.toNat % 0x10000000000000 = 0
    · simp [hfrac, hzero.mpr hfrac, ofUnpacked, isNegative_unpackSign]
    · rw [dif_neg (mt hzero.mp hfrac), toNat_unpackExponent, hsmall, hbias]
      simp [ofUnpacked, isNegative_unpackSign, toNat_unpackMantissa]
  · have himplicit := toNat_implicit (unpackMantissa b)
    rw [toNat_unpackMantissa] at himplicit
    rw [if_neg hsmall, if_neg (mt hnone.mp hsmall), hbias]
    simp [ofUnpacked, isNegative_unpackSign, himplicit, toNat_unpackExponent]

/-- A mantissa has 53 bits, and fewer only at the least exponent. So of two numbers with different
exponents the one with the larger exponent is the larger in absolute value, which is what a
comparison relies on. -/
theorem bounds_of_ofFloat {x : Float} {negative : Bool} {m : Nat} {e : Int}
    (h : ofFloat x = .finite negative m e) :
    m < 0x20000000000000 ∧ -1074 ≤ e ∧ (0x10000000000000 ≤ m ∨ e = -1074) := by
  unfold ofFloat at h
  dsimp only at h
  split at h
  · split at h <;> cases h
  split at h
  · cases h
    omega
  · rename_i hexp
    cases h
    have hpos : (1 : Int) ≤ Int.ofNat (x.toBits.toNat / 0x10000000000000 % 2048) :=
      Int.ofNat_le.mpr (Nat.one_le_iff_ne_zero.mpr hexp)
    exact ⟨by omega, by omega, .inl (by omega)⟩

/-! ## Rounding

Numbers are rounded by shifting them to the exponent they are to have, with two more bits that say
what was shifted out. Rounding up can make the mantissa one bit too long, so the shift is made
twice. -/

/-- Zeros that are shifted out leave no trace: neither of the two bits is set that remember what was
shifted out. -/
theorem shiftRight_exact (m k : Nat) :
    (⟨m <<< k, false, false⟩ : ExtendedMantissa) >>> k = ⟨m, false, false⟩ := by
  induction k generalizing m with
  | zero => rfl
  | succ k ih =>
    have hstep : (⟨m <<< (k + 1), false, false⟩ : ExtendedMantissa) >>> (k + 1) =
        ((⟨(m <<< 1) <<< k, false, false⟩ : ExtendedMantissa) >>> k).shiftRightOne := by
      rw [← Nat.shiftLeft_add, Nat.add_comm 1 k]
      rfl
    rw [hstep, ih]
    simp [ExtendedMantissa.shiftRightOne, Nat.shiftLeft_eq]

theorem mantissa_shiftRight (em : ExtendedMantissa) (k : Nat) :
    (em >>> k).mantissa = em.mantissa >>> k := by
  induction k with
  | zero => rfl
  | succ k ih =>
    have hstep : (em >>> (k + 1)).mantissa = (em >>> k).mantissa / 2 := rfl
    rw [hstep, ih, Nat.shiftRight_succ]

/-- Rounding adds one at most. Whether it does depends on the two further bits, and on the last bit
of the mantissa where these say that it is a tie. -/
theorem roundedMantissa_bounds (em : ExtendedMantissa) :
    em.mantissa ≤ em.roundedMantissa ∧ em.roundedMantissa ≤ em.mantissa + 1 := by
  obtain ⟨m, round, sticky⟩ := em
  cases round <;> cases sticky <;>
    simp only [ExtendedMantissa.roundedMantissa, ExtendedMantissa.accuracy,
      Accuracy.roundToNearestEven] <;>
    omega

theorem log2_eq_of_bounds {m : Nat} (low : 0x10000000000000 ≤ m) (high : m < 0x20000000000000) :
    m.log2 = 52 := by
  have hne : m ≠ 0 := by omega
  have hle : 52 ≤ m.log2 := (Nat.le_log2 hne).mpr low
  have hlt : m.log2 < 53 := (Nat.log2_lt hne).mpr high
  omega

theorem log2_shiftLeft {m : Nat} (h : m ≠ 0) (k : Nat) : (m <<< k).log2 = m.log2 + k := by
  induction k with
  | zero => rfl
  | succ k ih =>
    have hne : m <<< k ≠ 0 := by simpa using h
    rw [Nat.shiftLeft_succ, Nat.log2_two_mul hne, ih, Nat.add_assoc]

/-- The exponent at which the leading bit is the 53rd, or the least exponent if that is larger. -/
theorem targetExponent_eq (m : Nat) (e : Int) :
    Format.binary64.targetExponent (totalExponent m e) = max (m.log2 + e - 52) (-1074) := by
  have hbits : (Format.binary64.mantissaBits : Int) = 53 := rfl
  have hmin : Format.binary64.minExponent = -1074 := rfl
  unfold Format.targetExponent totalExponent
  rw [hbits, hmin]
  omega

theorem shift_fitting {m : Nat} {e : Int} (low : 0x10000000000000 ≤ m)
    (high : m < 0x20000000000000) (he : -1074 ≤ e) :
    shiftToTargetExponent Format.binary64 m e .exact = (⟨m, false, false⟩, e) := by
  have htarget : Format.binary64.targetExponent (totalExponent m e) = e := by
    rw [targetExponent_eq, log2_eq_of_bounds low high]
    omega
  simp only [shiftToTargetExponent, shiftToExponent, htarget, Int.sub_self, Int.toNat_zero]
  exact Prod.ext rfl (Int.add_zero e)

/-- A mantissa that has become `2 ^ 53` by rounding is shifted back by one bit, which is a zero. So
the second shift never rounds again. -/
theorem shift_carried {e : Int} (he : -1074 ≤ e) :
    shiftToTargetExponent Format.binary64 0x20000000000000 e .exact =
      (⟨0x10000000000000, false, false⟩, e + 1) := by
  have hlog : Nat.log2 0x20000000000000 = 53 := Nat.log2_two_pow (n := 53)
  have htarget : Format.binary64.targetExponent (totalExponent 0x20000000000000 e) = e + 1 := by
    rw [targetExponent_eq, hlog]
    omega
  have hone : (e + 1 - e).toNat = 1 := by omega
  simp only [shiftToTargetExponent, shiftToExponent, htarget, hone]
  rfl

theorem roundWithAccuracy_exact {m : Nat} (low : 0x10000000000000 ≤ m)
    (high : m < 0x20000000000000) (s : Sign) (k : Nat) {e : Int} (he : -1074 ≤ e + k)
    (pos : 0 < m) :
    roundWithAccuracy Format.binary64 s (m <<< k) e .exact = .finite s m (e + k) pos := by
  have hlog : (m <<< k).log2 = 52 + k := by
    rw [log2_shiftLeft (by omega), log2_eq_of_bounds low high]
  have htarget : Format.binary64.targetExponent (totalExponent (m <<< k) e) = e + k := by
    rw [targetExponent_eq, hlog]
    omega
  have hamount : (e + k - e).toNat = k := by omega
  have hshift : shiftToTargetExponent Format.binary64 (m <<< k) e .exact =
      (⟨m, false, false⟩, e + k) := by
    simp only [shiftToTargetExponent, shiftToExponent, htarget, hamount,
      ExtendedMantissa.ofMantissaAndAccuracy]
    rw [shiftRight_exact]
  have hround : (⟨m, false, false⟩ : ExtendedMantissa).roundedMantissa = m := rfl
  have hne : m ≠ 0 := by omega
  simp only [roundWithAccuracy, hshift, hround, shift_fitting low high he, dif_neg hne]

/-- A number with more bits is rounded to one of 53, whose unit is no smaller than it has to be.
Which one it is does not matter for numbers that large, only that it is no less than `2 ^ 52`
units. -/
theorem roundWithAccuracy_large {n : Nat} (s : Sign) {e : Int} (large : 52 ≤ n.log2)
    (he : -1074 ≤ n.log2 + e - 52) :
    ∃ (m : Nat) (e' : Int) (pos : 0 < m),
      roundWithAccuracy Format.binary64 s n e .exact = .finite s m e' pos ∧
        0x10000000000000 ≤ m ∧ m < 0x20000000000000 ∧ n.log2 + e - 52 ≤ e' := by
  have hne : n ≠ 0 := by
    rintro rfl
    simp at large
  have htarget : Format.binary64.targetExponent (totalExponent n e) = n.log2 + e - 52 := by
    rw [targetExponent_eq]
    omega
  obtain ⟨k, hk⟩ : ∃ k, n.log2 = 52 + k := ⟨n.log2 - 52, by omega⟩
  have hamount : (n.log2 + e - 52 - e).toNat = k := by omega
  obtain ⟨em, hem⟩ : ∃ em, em = (⟨n, false, false⟩ : ExtendedMantissa) >>> k :=
    ⟨_, rfl⟩
  have hshift : shiftToTargetExponent Format.binary64 n e .exact = (em, n.log2 + e - 52) := by
    simp only [shiftToTargetExponent, shiftToExponent, htarget, hamount,
      ExtendedMantissa.ofMantissaAndAccuracy]
    exact Prod.ext hem.symm (by dsimp only; omega)
  have hmantissa : em.mantissa = n >>> k := by rw [hem, mantissa_shiftRight]
  have hlow : 0x10000000000000 ≤ n >>> k := by
    rw [Nat.shiftRight_eq_div_pow, Nat.le_div_iff_mul_le (Nat.two_pow_pos k)]
    have hlog := Nat.log2_self_le hne
    rw [hk, Nat.pow_add] at hlog
    exact hlog
  have hhigh : n >>> k < 0x20000000000000 := by
    rw [Nat.shiftRight_eq_div_pow, Nat.div_lt_iff_lt_mul (Nat.two_pow_pos k)]
    have hlog := (Nat.log2_lt hne (k := 53 + k)).mp (by omega)
    rw [Nat.pow_add] at hlog
    exact hlog
  obtain ⟨hfloor, hceil⟩ := roundedMantissa_bounds em
  rw [hmantissa] at hfloor hceil
  -- rounding up can make the mantissa one bit longer, but then it is a power of two
  by_cases hcarry : em.roundedMantissa < 0x20000000000000
  · refine ⟨em.roundedMantissa, n.log2 + e - 52, by omega, ?_, by omega, hcarry, Int.le_refl _⟩
    have hpos : em.roundedMantissa ≠ 0 := by omega
    simp only [roundWithAccuracy, hshift, shift_fitting (by omega) hcarry he, dif_neg hpos]
  · refine ⟨0x10000000000000, n.log2 + e - 52 + 1, by decide,
      ?_, by decide, by decide, by omega⟩
    have hfull : em.roundedMantissa = 0x20000000000000 := by omega
    simp only [roundWithAccuracy, hshift, hfull, shift_carried he]
    rfl

/-! ## Packing -/

/-- Infinities, zeros, and numbers with a full mantissa whose exponent fits. These are what whole
numbers become; the denormal numbers are not among them, for which packing works in another way. -/
inductive Regular : UnpackedFloat → Prop where
  | infinity (s : Sign) : Regular (.infinity s)
  | zero (s : Sign) : Regular (.zero s)
  | finite (s : Sign) {m : Nat} {e : Int} (low : 0x10000000000000 ≤ m)
      (high : m < 0x20000000000000)
      (he : -1074 ≤ e) (he' : e ≤ 971) (pos : 0 < m) : Regular (.finite s m e pos)

theorem Regular.neg {u : UnpackedFloat} (h : Regular u) : Regular u.neg := by
  cases h with
  | infinity s => exact .infinity (-s)
  | zero s => exact .zero (-s)
  | finite s low high he he' pos => exact .finite (-s) low high he he' pos

/-- Regular numbers are not changed by packing. The leading bit is dropped, and put back since the
exponent is neither the least nor the greatest. -/
theorem Regular.unpack_pack {u : UnpackedFloat} (h : Regular u) :
    (Float.Model.pack u).unpack = u := by
  show UnpackedFloat.unpack Format.binary64 (UnpackedFloat.pack Format.binary64 u) = u
  cases h with
  | infinity s =>
    rw [UnpackedFloat.pack, packedInfinity]
    simp [UnpackedFloat.unpack]
  | zero s =>
    rw [UnpackedFloat.pack, packedZero]
    simp [UnpackedFloat.unpack]
  | @finite s m e low high he he' pos =>
    have hbias : (Format.binary64.exponentBias : Int) = 1023 := rfl
    -- the exponent as it is stored, which the bounds on `e` make a natural number
    obtain ⟨biased, hbiased⟩ : ∃ biased : Nat, e + 1075 = biased :=
      ⟨(e + 1075).toNat, by omega⟩
    have hexp :
        (e + Format.binary64.exponentBias + Format.binary64.mantissaBitsWithoutImplicit).toNat =
        biased := by
      rw [hbias]
      show (e + 1023 + 52).toNat = biased
      omega
    have hfits : ¬ 2048 ≤ biased + 1 := by omega
    have hfull : m.log2 + 1 = Format.binary64.mantissaBits := by
      rw [log2_eq_of_bounds low high]; rfl
    have hexpNat : (BitVec.ofNat Format.binary64.exponentBits biased).toNat = biased :=
      Nat.mod_eq_of_lt (show biased < 2048 by omega)
    -- neither the code of infinity nor that of numbers without a leading bit
    have hnotAll : BitVec.ofNat Format.binary64.exponentBits biased ≠ -1#_ := by
      intro h
      have hnat : biased = 2047 := hexpNat.symm.trans (congrArg BitVec.toNat h)
      omega
    have hnotZero : BitVec.ofNat Format.binary64.exponentBits biased ≠ 0#_ := by
      intro h
      have hnat : biased = 0 := hexpNat.symm.trans (congrArg BitVec.toNat h)
      omega
    have himplicit : (1#1 ++ BitVec.ofNat Format.binary64.mantissaBitsWithoutImplicit m).toNat =
        m := by
      have hmantissa : (BitVec.ofNat Format.binary64.mantissaBitsWithoutImplicit m).toNat =
          m % 0x10000000000000 :=
        rfl
      rw [toNat_implicit, hmantissa]
      omega
    -- packing takes the branch for full mantissas, and unpacking the one that puts the bit back
    simp only [UnpackedFloat.pack, hexp]
    rw [if_neg (by exact hfits), if_pos hfull]
    simp only [UnpackedFloat.unpack, unpackExponent_packComponents, unpackMantissa_packComponents,
      unpackSign_packComponents, Sign.ofBitVec_toBitVec]
    rw [if_neg hnotAll, if_neg hnotZero]
    simp only [hexpNat, hbias]
    congr 1
    show (biased : Int) - (1023 + 52) = e
    omega

theorem unpack_pack_overflow (s : Sign) {m : Nat} {e : Int} (he : 971 < e) (pos : 0 < m) :
    (Float.Model.pack (.finite s m e pos)).unpack = .infinity s := by
  have hbias : (Format.binary64.exponentBias : Int) = 1023 := rfl
  have hover : 2048 ≤
      (e + Format.binary64.exponentBias + Format.binary64.mantissaBitsWithoutImplicit).toNat +
        1 := by
    rw [hbias]
    show 2048 ≤ (e + 1023 + 52).toNat + 1
    omega
  have hpack : UnpackedFloat.pack Format.binary64 (.finite s m e pos) =
      packedInfinity Format.binary64 s := by
    simp only [UnpackedFloat.pack]
    rw [if_pos (by exact hover)]
  show UnpackedFloat.unpack Format.binary64
      (UnpackedFloat.pack Format.binary64 (.finite s m e pos)) = _
  rw [hpack, packedInfinity]
  simp [UnpackedFloat.unpack]

theorem neg_unpack {x : Float} (h : Regular x.toModel.unpack) :
    x.neg.toModel.unpack = x.toModel.unpack.neg :=
  h.neg.unpack_pack

/-! ## Doubles for whole numbers

A whole number becomes a double in one of two ways: below `2 ^ 53` it is converted from a word and
multiplied by one, and from there on it goes through the reader for decimals. -/

/-- What the double for `n` is. Below `2 ^ 53` it is `n` itself with zeros behind it; above, all
that is said is that it is at least as large as that. -/
inductive OfNat (n : Nat) : UnpackedFloat → Prop where
  | zero (h : n = 0) : OfNat n (.zero .positive)
  | exact {k : Nat} (hk : k ≤ 52) (low : 0x10000000000000 ≤ n <<< k)
      (high : n <<< k < 0x20000000000000)
      (pos : 0 < n <<< k) : OfNat n (.finite .positive (n <<< k) (-k) pos)
  | large {m : Nat} {e : Int} (h : 0x20000000000000 ≤ n) (low : 0x10000000000000 ≤ m)
      (high : m < 0x20000000000000) (he : 1 ≤ e) (he' : e ≤ 971) (pos : 0 < m) :
      OfNat n (.finite .positive m e pos)
  | infinity (h : 0x20000000000000 ≤ n) : OfNat n (.infinity .positive)

theorem OfNat.regular {n : Nat} {u : UnpackedFloat} (h : OfNat n u) : Regular u := by
  cases h with
  | zero => exact .zero _
  | exact hk low high pos => exact .finite _ low high (by omega) (by omega) pos
  | large h low high he he' pos => exact .finite _ low high (by omega) he' pos
  | infinity => exact .infinity _

/-- The mantissa of a number below `2 ^ 53` is filled up with zeros. -/
theorem shiftLeft_bounds {n : Nat} (pos : 0 < n) (small : n < 0x20000000000000) :
    ∃ k, k ≤ 52 ∧ n.log2 + k = 52 ∧ 0x10000000000000 ≤ n <<< k ∧
      n <<< k < 0x20000000000000 := by
  have hne : n ≠ 0 := by omega
  have hlog : n.log2 < 53 := (Nat.log2_lt hne).mpr small
  refine ⟨52 - n.log2, by omega, by omega, ?_⟩
  have hshift : (n <<< (52 - n.log2)).log2 = 52 := by
    rw [log2_shiftLeft hne]
    omega
  have hne' : n <<< (52 - n.log2) ≠ 0 := by simpa using hne
  exact (Nat.log2_eq_iff hne').mp hshift

theorem round_small {n : Nat} (pos : 0 < n) (small : n < 0x20000000000000) :
    OfNat n (UnpackedFloat.round Format.binary64 .positive n 0) := by
  obtain ⟨k, hk, hlog, low, high⟩ := shiftLeft_bounds pos small
  have htarget : Format.binary64.targetExponent (totalExponent n 0) = -k := by
    rw [targetExponent_eq]
    omega
  have hamount : (0 - -(k : Int)).toNat = k := by omega
  have hround := roundWithAccuracy_exact low high .positive 0 (e := 0 - k) (by omega) (by omega)
  have he : (0 : Int) - k + (0 : Nat) = -k := by omega
  simp only [UnpackedFloat.round, htarget, decreaseExponent, hamount]
  rw [Nat.shiftLeft_zero] at hround
  rw [hround]
  simp only [he]
  exact .exact hk low high _

theorem ofNat_small {n : Nat} (small : n < 0x20000000000000) :
    OfNat n (UnpackedFloat.ofNat Format.binary64 n) := by
  unfold UnpackedFloat.ofNat UnpackedFloat.ofInt UnpackedFloat.normalize
  cases n with
  | zero => exact .zero rfl
  | succ n => exact round_small (Nat.succ_pos n) small

/-- Multiplying by one changes nothing. The product has twice as many bits, of which the lower half
is zero. -/
theorem OfNat.mul_one {n : Nat} {u : UnpackedFloat} (h : OfNat n u) (small : n < 0x20000000000000)
    (pos : 0 < 0x10000000000000) :
    UnpackedFloat.mul Format.binary64 u (.finite .positive 0x10000000000000 (-52) pos) = u := by
  cases h with
  | zero => rfl
  | @exact k hk low high pos' =>
    have hmul : n <<< k * 0x10000000000000 = (n <<< k) <<< 52 := (Nat.shiftLeft_eq _ 52).symm
    have hround :=
      roundWithAccuracy_exact low high (.positive * .positive) 52 (e := -(k : Int) + -52)
      (by omega) pos'
    have he : -(k : Int) + -52 + (52 : Nat) = -k := by omega
    rw [UnpackedFloat.mul, hmul, hround]
    simp only [he]
    rfl
  | large h => omega
  | infinity h => omega

/-- A large number as a decimal without an exponent. It is shifted to the left first, so that there
are bits to round by. -/
theorem ofScientific_large {n : Nat} (large : 0x20000000000000 ≤ n) :
    OfNat n (Float.Model.ofScientific n 0).unpack := by
  have hne : n ≠ 0 := by omega
  have hlog : 53 ≤ n.log2 := (Nat.le_log2 hne).mpr large
  have hshift : (n <<< 53).log2 = n.log2 + 53 := log2_shiftLeft hne 53
  obtain ⟨m, e, pos, hround, low, high, he⟩ :=
    roundWithAccuracy_large (n := n <<< 53) (.positive * .positive) (e := -53 + 0)
      (by omega) (by omega)
  have hscientific : UnpackedFloat.ofScientific Format.binary64 n 0 =
      .finite .positive m e pos := by
    have hguard : ¬ (0 : Int) < -(2048 + n.log2) := by omega
    have hten : (10 : Nat) ^ Int.toNat 0 = 1 := rfl
    unfold UnpackedFloat.ofScientific
    rw [dif_neg hne, if_neg (by decide), if_neg (by exact hguard), if_pos (Int.le_refl 0),
      UnpackedFloat.mul, hten, Nat.mul_one]
    exact hround
  rw [Float.Model.ofScientific, hscientific]
  by_cases hover : 971 < e
  -- beyond the largest double it is an infinity, which is large as well
  · rw [unpack_pack_overflow .positive hover]
    exact .infinity large
  · have hof : OfNat n (.finite .positive m e pos) :=
      .large large low high (by omega) (by omega) pos
    rw [hof.regular.unpack_pack]
    exact hof

theorem unpack_one :
    ∃ pos, (Float.ofBits 0x3FF0000000000000).toModel.unpack =
      .finite .positive 0x10000000000000 (-52) pos :=
  ⟨by decide, rfl⟩

theorem ofNat_unpack (n : Nat) : OfNat n (Float.ofNat n).toModel.unpack := by
  have hdef : Float.ofNat n = Float.ofScientific n false 0 := rfl
  by_cases small : n < 0x20000000000000
  · -- a small number is multiplied by a power of ten, which is one here
    have hmul : Float.ofNat n = n.toUInt64.toFloat * Float.ofBits 0x3FF0000000000000 := by
      rw [hdef, Float.ofScientific, dif_pos ⟨small, by decide⟩]
      rfl
    have hsize : n.toUInt64.toNat = n := by
      simp only [Nat.toUInt64_eq, UInt64.toNat_ofNat']
      omega
    have hof := ofNat_small small
    have hunpack : n.toUInt64.toFloat.toModel.unpack = UnpackedFloat.ofNat Format.binary64 n := by
      show (Float.Model.pack (UnpackedFloat.ofNat Format.binary64 n.toUInt64.toNat)).unpack = _
      rw [hsize, hof.regular.unpack_pack]
    obtain ⟨pos, hone⟩ := unpack_one
    have hproduct : (Float.ofNat n).toModel.unpack = UnpackedFloat.ofNat Format.binary64 n := by
      rw [hmul]
      show (Float.Model.pack
          (UnpackedFloat.mul Format.binary64 n.toUInt64.toFloat.toModel.unpack _)).unpack = _
      rw [hunpack, hone, hof.mul_one small, hof.regular.unpack_pack]
    rw [hproduct]
    exact hof
  · have hlarge : Float.ofNat n = .ofModel (Float.Model.ofScientific n 0) := by
      rw [hdef, Float.ofScientific, dif_neg (fun h => small h.1)]
      rfl
    rw [hlarge]
    exact ofScientific_large (Nat.le_of_not_lt small)

/-! ## Reading whole numbers back -/

/-- What is read off the double for `n`, or for `-n`. A small number comes back, with nothing behind
the point; of a large one it is only known that it stays large, or becomes an infinity. -/
inductive Reads (n : Nat) (negative : Bool) : Binary → Prop where
  | exact {m : Nat} {e : Int} (small : n < 0x20000000000000) (whole : (split m e).whole = n)
      (rest : (split m e).rest = 0) : Reads n negative (.finite negative m e)
  | large {m : Nat} {e : Int} (large : 0x20000000000000 ≤ n)
      (whole : 0x20000000000000 ≤ (split m e).whole)
      (rest : (split m e).rest = 0) : Reads n negative (.finite negative m e)
  | infinite (large : 0x20000000000000 ≤ n) : Reads n negative (.infinite negative)

theorem split_shiftLeft (n k : Nat) :
    (split (n <<< k) (-k)).whole = n ∧ (split (n <<< k) (-k)).rest = 0 := by
  rcases k with _ | k
  · exact ⟨Nat.mul_one n, rfl⟩
  · have hneg : ¬ (0 : Int) ≤ -((k + 1 : Nat) : Int) := by omega
    have hnat : (- -((k + 1 : Nat) : Int)).toNat = k + 1 := by omega
    simp only [split, if_neg hneg, hnat, Nat.shiftLeft_eq, Nat.pow_eq]
    exact ⟨Nat.mul_div_cancel n (Nat.two_pow_pos _), Nat.mul_mod_left n _⟩

theorem split_large {m : Nat} {e : Int} (low : 0x10000000000000 ≤ m) (he : 1 ≤ e) :
    0x20000000000000 ≤ (split m e).whole ∧ (split m e).rest = 0 := by
  obtain ⟨k, hk⟩ : ∃ k : Nat, e.toNat = k + 1 := ⟨e.toNat - 1, by omega⟩
  simp only [split, if_pos (show 0 ≤ e by omega), hk, Nat.pow_eq, Nat.pow_succ]
  refine ⟨?_, trivial⟩
  calc 0x20000000000000 = 0x10000000000000 * (1 * 2) := rfl
    _ ≤ m * (2 ^ k * 2) := Nat.mul_le_mul low (Nat.mul_le_mul_right 2 (Nat.two_pow_pos k))

theorem OfNat.reads {n : Nat} {u : UnpackedFloat} (h : OfNat n u) :
    Reads n false (ofUnpacked u) ∧ Reads n true (ofUnpacked u.neg) := by
  cases h with
  | zero hn =>
    subst hn
    have hwhole : (split 0 (-1074)).whole = 0 := by decide +kernel
    have hrest : (split 0 (-1074)).rest = 0 := by decide +kernel
    exact ⟨.exact (by decide) hwhole hrest, .exact (by decide) hwhole hrest⟩
  | @exact k hk low high pos =>
    have hle : n ≤ n <<< k := by
      rw [Nat.shiftLeft_eq]
      exact Nat.le_mul_of_pos_right n (Nat.two_pow_pos k)
    have small : n < 0x20000000000000 := by omega
    obtain ⟨hwhole, hrest⟩ := split_shiftLeft n k
    exact ⟨.exact small hwhole hrest, .exact small hwhole hrest⟩
  | large hn low high he he' pos =>
    obtain ⟨hwhole, hrest⟩ := split_large low he
    exact ⟨.large hn hwhole hrest, .large hn hwhole hrest⟩
  | infinity hn => exact ⟨.infinite hn, .infinite hn⟩

/-- **Whole numbers as doubles**: below `2 ^ 53` they are what they were, and from there on they
stay there. A negative number is the double of its absolute value with the other sign. -/
theorem ofInt_reads (i : Int) : Reads i.natAbs (decide (i < 0)) (ofFloat (Float.ofInt i)) := by
  rw [ofFloat_eq]
  cases i with
  | ofNat n =>
    have hsign : decide (Int.ofNat n < 0) = false := rfl
    rw [hsign]
    exact (ofNat_unpack n).reads.1
  | negSucc n =>
    have hof := ofNat_unpack (n + 1)
    have hunpack : (Float.ofInt (Int.negSucc n)).toModel.unpack =
        (Float.ofNat (n + 1)).toModel.unpack.neg :=
      neg_unpack hof.regular
    have hsign : decide (Int.negSucc n < 0) = true := decide_eq_true (Int.negSucc_lt_zero n)
    rw [hunpack, hsign]
    exact hof.reads.2

/-! ## Less than one

The comparison of doubles looks at exponents first and at mantissas then. This is right for full
mantissas, and for a double with fewer bits the exponent is far below that of one. -/

theorem lt_one_iff (x : Float) (pos : 0 < 0x10000000000000) :
    x < 1.0 ↔
      x.toModel.unpack.compare (.finite .positive 0x10000000000000 (-52) pos) = some .lt := by
  have hone : (1.0 : Float).toModel.unpack = .finite .positive 0x10000000000000 (-52) pos := rfl
  have hlt : x.toModel < (1.0 : Float).toModel ↔
      x.toModel.unpack.lt (1.0 : Float).toModel.unpack = true := Iff.rfl
  show decide (x.toModel < (1.0 : Float).toModel) = true ↔ _
  rw [decide_eq_true_iff, hlt, hone, UnpackedFloat.lt, beq_iff_eq]

theorem compare_one {m : Nat} {e : Int} (pos : 0 < m) (pos' : 0 < 0x10000000000000) :
    UnpackedFloat.compare (.finite .positive m e pos)
      (.finite .positive 0x10000000000000 (-52) pos') = some .lt ↔
        e < -52 ∨ e = -52 ∧ m < 0x10000000000000 := by
  rw [UnpackedFloat.compare, Option.some.injEq, Ordering.then_eq_lt, Int.compare_eq_lt,
    Int.compare_eq_eq, Nat.compare_eq_lt]

theorem whole_eq_zero {m : Nat} {e : Int} (hm : m < 0x20000000000000)
    (h : e < -52 ∨ e = -52 ∧ m < 0x10000000000000) : (split m e).whole = 0 := by
  obtain ⟨k, hk⟩ : ∃ k : Nat, (-e).toNat = k + 52 := ⟨(-e).toNat - 52, by omega⟩
  simp only [split, if_neg (show ¬ 0 ≤ e by omega), hk, Nat.pow_eq]
  apply Nat.div_eq_of_lt
  rcases h with h | ⟨h, hm'⟩
  -- the mantissa may have 53 bits here, but the exponent is one less
  · obtain ⟨j, rfl⟩ : ∃ j, k = j + 1 := ⟨k - 1, by omega⟩
    calc m < 0x20000000000000 * 1 := hm
      _ ≤ 0x20000000000000 * 2 ^ j := Nat.mul_le_mul_left _ (Nat.two_pow_pos j)
      _ = 2 ^ (j + 1 + 52) := by rw [Nat.add_assoc, Nat.pow_add, Nat.mul_comm]
  · obtain rfl : k = 0 := by omega
    exact hm'

theorem one_le_whole {m : Nat} {e : Int} (hm : 0x10000000000000 ≤ m) (he : -52 ≤ e) :
    1 ≤ (split m e).whole := by
  unfold split
  by_cases h : 0 ≤ e
  · rw [if_pos h]
    exact Nat.mul_pos (show 0 < m by omega) (Nat.two_pow_pos _)
  · rw [if_neg h]
    have hpow : Nat.pow 2 (-e).toNat ≤ 0x10000000000000 :=
      Nat.pow_le_pow_right (n := 2) (by decide) (show (-e).toNat ≤ 52 by omega)
    exact Nat.div_pos (Nat.le_trans hpow hm) (Nat.two_pow_pos _)

end Binary

namespace Number

open Binary

theorem whole?_ofInt {i : Int} (small : i.natAbs < 0x20000000000000) :
    whole? (Float.ofInt i) = some i := by
  have reads := ofInt_reads i
  generalize hb : ofFloat (Float.ofInt i) = b at reads
  cases reads with
  | exact _ whole rest =>
    simp only [whole?, hb, rest, whole, if_true, Option.some.injEq, decide_eq_true_eq]
    split <;> omega
  | large h => omega
  | infinite h => omega

theorem toInt64_ofInt {i : Int} (small : i.natAbs < 0x20000000000000) :
    toInt64 (Float.ofInt i) = i := by
  have reads := ofInt_reads i
  generalize hb : ofFloat (Float.ofInt i) = b at reads
  cases reads with
  | exact _ whole rest =>
    simp only [toInt64, toIntIn, hb, whole, decide_eq_true_eq]
    split <;> omega
  | large h => omega
  | infinite h => omega

/-- A large index is read back as a large one, so no array has an element there. Which one it is may
have changed by rounding. -/
theorem le_toInt64_ofInt {i : Int} (large : 0x20000000000000 ≤ i.natAbs) :
    0x20000000000000 ≤ (toInt64 (Float.ofInt i)).natAbs := by
  have reads := ofInt_reads i
  generalize hb : ofFloat (Float.ofInt i) = b at reads
  cases reads with
  | exact h => omega
  | large _ whole rest =>
    simp only [toInt64, toIntIn, hb, decide_eq_true_eq]
    split <;> omega
  | infinite =>
    simp only [toInt64, toIntIn, hb, decide_eq_true_eq]
    split <;> decide

theorem toIntIn_of_lt_one {x : Float} (h : x < 1.0) {hi : Int} (hhi : 0 ≤ hi) :
    toIntIn 0 hi x = 0 := by
  rw [lt_one_iff x (by decide)] at h
  have hx := ofFloat_eq x
  cases hu : x.toModel.unpack with
  | notANumber =>
    rw [hu] at h
    cases h
  | infinity s =>
    rw [hu] at h hx
    cases s with
    | negative => simp [toIntIn, hx, ofUnpacked, isNegative]
    | positive => cases h
  -- zero is kept with the least exponent, where it has no whole part either
  | zero s =>
    rw [hu] at hx
    have hwhole : (split 0 (-1074)).whole = 0 := by decide +kernel
    simp only [toIntIn, hx, ofUnpacked, hwhole]
    split <;> omega
  | finite s m e pos =>
    rw [hu] at h hx
    cases s with
    | negative =>
      simp only [toIntIn, hx, ofUnpacked, isNegative, if_true]
      omega
    -- the one case in which the comparison says something about the size
    | positive =>
      have hwhole := whole_eq_zero (bounds_of_ofFloat hx).1 ((compare_one pos (by decide)).mp h)
      simp only [toIntIn, hx, ofUnpacked, isNegative, hwhole, if_false, Bool.false_eq_true]
      omega

/-- What is a number and not less than one has a whole part of at least one. What is not a number
has to be excluded: it is not less than one, either, and as a whole number it is zero. -/
theorem one_le_toIntIn {x : Float} (number : x.isNaN = false) (h : ¬ x < 1.0) {hi : Int}
    (hhi : 1 ≤ hi) :
    1 ≤ toIntIn 0 hi x := by
  rw [lt_one_iff x (by decide)] at h
  have hx := ofFloat_eq x
  have hnan : x.toModel.unpack.isNaN = false := number
  cases hu : x.toModel.unpack with
  | notANumber =>
    rw [hu] at hnan
    cases hnan
  | infinity s =>
    rw [hu] at h hx
    cases s with
    | negative => exact absurd rfl h
    | positive =>
      simp only [toIntIn, hx, ofUnpacked, isNegative, if_false, Bool.false_eq_true]
      exact hhi
  -- zeros and negative numbers are less than one
  | zero s =>
    rw [hu] at h
    exact absurd rfl h
  | finite s m e pos =>
    rw [hu] at h hx
    cases s with
    | negative => exact absurd rfl h
    | positive =>
      have hbounds := bounds_of_ofFloat hx
      have hnot := mt (compare_one pos (by decide)).mpr h
      have hwhole := one_le_whole (m := m) (e := e) (by omega) (by omega)
      simp only [toIntIn, hx, ofUnpacked, isNegative, if_false, Bool.false_eq_true]
      omega

/-- A smaller range cuts off more, and nothing else. The number of attempts is cut off at the
largest count. -/
theorem toIntIn_eq_min (x : Float) {hi hi' : Int} (hnonneg : 0 ≤ hi) (hle : hi ≤ hi') :
    toIntIn 0 hi x = Min.min hi (toIntIn 0 hi' x) := by
  cases hx : ofFloat x with
  | nan =>
    simp only [toIntIn, hx]
    omega
  | infinite negative =>
    simp only [toIntIn, hx]
    split <;> omega
  | finite negative mant exp =>
    simp only [toIntIn, hx]
    omega

end Number

end Stepwise
