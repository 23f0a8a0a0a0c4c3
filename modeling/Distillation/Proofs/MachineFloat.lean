import Mathlib
import Distillation.Proofs.RealScalar

namespace Distillation

/-- What holds of numbers in exact and in rounded arithmetic. A value that differs from itself is not a number, and
nothing is asked of it. -/
class RoundedArithmetic (K : Type) [Scalar K] : Prop where
  beq_symm {a b : K} : (a == b) = true → (b == a) = true
  zero_beq_zero : ((0 : K) == 0) = true
  one_beq_one : ((1 : K) == 1) = true
  neg_neg_beq {a : K} : (a == a) = true → (-(-a) == a) = true
  one_mul_beq {a : K} : (a == a) = true → (1 * a == a) = true
  mul_one_beq {a : K} : (a == a) = true → (a * 1 == a) = true

instance : RoundedArithmetic ℝ where
  beq_symm equal := beq_iff_eq.2 (beq_iff_eq.1 equal).symm
  zero_beq_zero := beq_self_eq_true 0
  one_beq_one := beq_self_eq_true 1
  neg_neg_beq _ := beq_iff_eq.2 (neg_neg _)
  one_mul_beq _ := beq_iff_eq.2 (one_mul _)
  mul_one_beq _ := beq_iff_eq.2 (mul_one _)

namespace MachineFloat

open Float.Model Float.Model.UnpackedFloat

/-- What fits into 64 bits. The mantissa has 53 bits, and leads with a one unless the exponent is the least. -/
inductive Canonical : UnpackedFloat → Prop
  | notANumber : Canonical .notANumber
  | infinity (s : Sign) : Canonical (.infinity s)
  | zero (s : Sign) : Canonical (.zero s)
  | finite {s : Sign} {m : Nat} {e : Int} (pos : 0 < m) (width : m < 2 ^ 53) (least : -1074 ≤ e)
      (largest : e ≤ 971) (leading : e = -1074 ∨ 2 ^ 52 ≤ m) : Canonical (.finite s m e pos)

section Packing

theorem finite_congr {s : Sign} {m m' : Nat} {e e' : Int} {pos : 0 < m} {pos' : 0 < m'} (mantissa : m = m')
    (exponent : e = e') : UnpackedFloat.finite s m e pos = .finite s m' e' pos' := by
  subst mantissa exponent
  rfl

theorem toNat_one_append {w : Nat} (v : BitVec w) : (1#1 ++ v).toNat = 2 ^ w + v.toNat := by
  rw [BitVec.toNat_append, ← Nat.shiftLeft_add_eq_or_of_lt v.isLt]
  simp [Nat.shiftLeft_eq]

/-- The offset of the exponent's field. -/
theorem bias_eq : (Format.binary64.exponentBias : Int) + (Format.binary64.mantissaBitsWithoutImplicit : Int) = 1075 := rfl

/-- Whatever is unpacked fits. -/
theorem canonical_unpack (a : Float.Model) : Canonical a.unpack := by
  rw [Float.Model.unpack]
  generalize a.toBits.toBitVec = bits
  have mantissa : (@unpackMantissa Format.binary64 bits).toNat < 2 ^ 52 := BitVec.isLt _
  have exponent : (@unpackExponent Format.binary64 bits).toNat < 2 ^ 11 := BitVec.isLt _
  have bias : (Format.binary64.exponentBias : Int) + (Format.binary64.mantissaBitsWithoutImplicit : Int) = 1075 :=
    bias_eq
  unfold UnpackedFloat.unpack
  dsimp only
  split
  · split
    · exact .infinity _
    · exact .notANumber
  · rename_i notTop
    split
    · rename_i bottom
      split
      · exact .zero _
      · refine .finite _ (by omega) ?_ ?_ ?_ <;> simp only [bottom, bias, BitVec.toNat_ofNat] <;> omega
    · rename_i notBottom
      have low : (@unpackExponent Format.binary64 bits).toNat ≠ 0 :=
        fun zero => notBottom (BitVec.eq_of_toNat_eq zero)
      have high : (@unpackExponent Format.binary64 bits).toNat ≠ 2047 :=
        fun top => notTop (BitVec.eq_of_toNat_eq top)
      refine .finite _ ?_ ?_ ?_ ?_ <;> simp only [toNat_one_append, bias] <;> omega

variable {s : Sign} {m : BitVec 52}

/-- Under an exponent field that is neither empty nor full, the leading one of the mantissa is not written. -/
theorem unpack_normal {e : BitVec 11} (notTop : e.toNat ≠ 2047) (notBottom : e.toNat ≠ 0) :
    UnpackedFloat.unpack .binary64 (packComponents .binary64 s e m) =
      .finite s (2 ^ 52 + m.toNat) (e.toNat - 1075) (by omega) := by
  have top : e ≠ -1#11 := fun same => notTop (congrArg BitVec.toNat same)
  have bottom : e ≠ 0#11 := fun same => notBottom (congrArg BitVec.toNat same)
  simp only [UnpackedFloat.unpack, unpackMantissa_packComponents, unpackExponent_packComponents,
    unpackSign_packComponents, Sign.ofBitVec_toBitVec]
  rw [if_neg top, if_neg bottom]
  exact finite_congr (toNat_one_append m) (by rw [bias_eq])

/-- Under an empty exponent field the mantissa is written in full. -/
theorem unpack_subnormal (pos : 0 < m.toNat) :
    UnpackedFloat.unpack .binary64 (packComponents .binary64 s 0#11 m) = .finite s m.toNat (-1074) pos := by
  have nonzero : m ≠ 0#52 := by
    rintro rfl
    exact Nat.lt_irrefl 0 pos
  simp only [UnpackedFloat.unpack, unpackMantissa_packComponents, unpackExponent_packComponents,
    unpackSign_packComponents, Sign.ofBitVec_toBitVec]
  rw [if_neg (by decide), if_pos trivial, dif_neg nonzero]
  exact finite_congr rfl (by rw [bias_eq]; rfl)

theorem unpack_pack {u : UnpackedFloat} (canonical : Canonical u) : (Float.Model.pack u).unpack = u := by
  change UnpackedFloat.unpack .binary64 (UnpackedFloat.pack .binary64 u) = u
  cases canonical with
  | notANumber => rfl
  | infinity s => cases s <;> rfl
  | zero s => cases s <;> rfl
  | @finite s m e pos width least largest leading =>
    have field : (e + (Format.binary64.exponentBias : Int) + (Format.binary64.mantissaBitsWithoutImplicit : Int)).toNat =
        (e + 1075).toNat := by rw [Int.add_assoc, bias_eq]
    have written : (BitVec.ofNat 11 (e + 1075).toNat).toNat = (e + 1075).toNat := by
      rw [BitVec.toNat_ofNat, Nat.mod_eq_of_lt (by omega)]
    rw [UnpackedFloat.pack]
    simp only [field]
    rw [if_neg (show ¬ 2 ^ 11 ≤ (e + 1075).toNat + 1 by omega)]
    by_cases normal : 2 ^ 52 ≤ m
    · have log : m.log2 = 52 := (Nat.log2_eq_iff (by omega)).2 ⟨normal, width⟩
      rw [if_pos (by rw [log]; rfl), unpack_normal (by omega) (by omega)]
      exact finite_congr (by rw [BitVec.toNat_ofNat]; omega) (by omega)
    · have lowest : e = -1074 := leading.resolve_right normal
      have log : m.log2 < 52 := (Nat.log2_lt (by omega)).2 (by omega)
      have whole : (BitVec.ofNat 52 m).toNat = m := by
        rw [BitVec.toNat_ofNat, Nat.mod_eq_of_lt (by omega)]
      rw [if_neg (by change m.log2 + 1 ≠ 53; omega), unpack_subnormal (by omega)]
      exact finite_congr whole lowest.symm

end Packing

section Rounding

variable {s : Sign} {m : Nat} {e : Int}

theorem log2_mul_two_pow (pos : 0 < m) (k : Nat) : (m * 2 ^ k).log2 = m.log2 + k := by
  obtain ⟨low, high⟩ := (Nat.log2_eq_iff (by omega)).1 (rfl : m.log2 = m.log2)
  have step : 2 ^ (m.log2 + k + 1) = 2 ^ (m.log2 + 1) * 2 ^ k := by rw [← Nat.pow_add]; congr 1; omega
  refine (Nat.log2_eq_iff (by positivity)).2 ⟨?_, ?_⟩
  · rw [Nat.pow_add]
    exact Nat.mul_le_mul_right _ low
  · rw [step]
    exact Nat.mul_lt_mul_of_pos_right high (by positivity)

/-- Zeros are shifted out without a trace. -/
theorem shiftRight_exact (k : Nat) : ∀ m, Nat.repeat ExtendedMantissa.shiftRightOne k ⟨m * 2 ^ k, false, false⟩ =
    ⟨m, false, false⟩ := by
  induction k with
  | zero => intro m; simp [Nat.repeat]
  | succ k ih =>
    intro m
    have twice : m * 2 ^ (k + 1) = m * 2 * 2 ^ k := by rw [Nat.pow_succ]; grind
    rw [Nat.repeat, twice, ih]
    simp [ExtendedMantissa.shiftRightOne]

variable (pos : 0 < m) (width : m < 2 ^ 53) (least : -1074 ≤ e) (leading : e = -1074 ∨ 2 ^ 52 ≤ m) (k : Nat)
include pos width least leading

/-- The exponent of what fits is the one it is rounded to, however many zeros are appended to the mantissa. -/
theorem targetExponent_eq : Format.binary64.targetExponent (Float.Model.totalExponent (m * 2 ^ k) (e - k)) = e := by
  have lowest : Format.binary64.minExponent = -1074 := by decide
  have bits : (Format.binary64.mantissaBits : Int) = 53 := rfl
  have narrow : m.log2 < 53 := (Nat.log2_lt (by omega)).2 width
  have wide : 2 ^ 52 ≤ m → 52 ≤ m.log2 := fun large => (Nat.le_log2 (by omega)).2 large
  rw [Format.targetExponent, lowest, bits, Float.Model.totalExponent, log2_mul_two_pow pos]
  rcases leading with same | large
  · omega
  · have := wide large
    omega

theorem shiftToTargetExponent_exact :
    shiftToTargetExponent .binary64 (m * 2 ^ k) (e - k) .exact = (⟨m, false, false⟩, e) := by
  have amount : (e - (e - k)).toNat = k := by omega
  rw [shiftToTargetExponent, targetExponent_eq pos width least leading, shiftToExponent]
  simp only [amount]
  exact Prod.ext (shiftRight_exact k m) (by simp)

/-- What fits is not rounded. -/
theorem round_exact : roundWithAccuracy .binary64 s (m * 2 ^ k) (e - k) .exact = .finite s m e pos := by
  have again := shiftToTargetExponent_exact pos width least leading 0
  simp only [Nat.pow_zero, Nat.mul_one, Nat.cast_zero, Int.sub_zero] at again
  have whole : (ExtendedMantissa.mk m false false).roundedMantissa = m := rfl
  rw [roundWithAccuracy, shiftToTargetExponent_exact pos width least leading k]
  simp only [whole, again]
  rw [dif_neg (by omega)]

end Rounding

section Operations

variable {u : UnpackedFloat}

/-- The float one, unpacked. -/
abbrev unit : UnpackedFloat := .finite .positive (2 ^ 52) (-52) (by decide)

theorem unpack_one : (1 : Float).toModel.unpack = unit := by
  rfl

theorem mul_unit (canonical : Canonical u) : UnpackedFloat.mul .binary64 u unit = u := by
  cases canonical with
  | notANumber => rfl
  | infinity s => cases s <;> rfl
  | zero s => cases s <;> rfl
  | @finite s m e pos width least _ leading =>
    have sign : s * .positive = s := by cases s <;> rfl
    rw [UnpackedFloat.mul, sign]
    exact round_exact pos width least leading 52

theorem unit_mul (canonical : Canonical u) : UnpackedFloat.mul .binary64 unit u = u := by
  cases canonical with
  | notANumber => rfl
  | infinity s => cases s <;> rfl
  | zero s => cases s <;> rfl
  | @finite s m e pos width least _ leading =>
    have sign : .positive * s = s := by cases s <;> rfl
    rw [UnpackedFloat.mul, sign, Nat.mul_comm, Int.add_comm]
    exact round_exact pos width least leading 52

theorem neg_neg (u : UnpackedFloat) : u.neg.neg = u := by
  cases u with
  | notANumber => rfl
  | infinity s | zero s | finite s _ _ _ => cases s <;> rfl

theorem canonical_neg (canonical : Canonical u) : Canonical u.neg := by
  cases canonical with
  | notANumber => exact .notANumber
  | infinity s => exact .infinity _
  | zero s => exact .zero _
  | finite pos width least largest leading => exact .finite pos width least largest leading

variable (a : Float)

/-- A float is packed as it was unpacked. -/
theorem pack_unpack_eq : Float.ofModel (Float.Model.pack a.toModel.unpack) = a :=
  Float.ofBits_toBits a

theorem float_neg_neg : -(-a) = a := by
  change Float.ofModel (Float.Model.pack (Float.Model.pack a.toModel.unpack.neg).unpack.neg) = a
  rw [unpack_pack (canonical_neg (canonical_unpack a.toModel)), neg_neg, pack_unpack_eq]

theorem float_one_mul : 1 * a = a := by
  change Float.ofModel (Float.Model.pack (UnpackedFloat.mul .binary64 (1 : Float).toModel.unpack a.toModel.unpack)) = a
  rw [unpack_one, unit_mul (canonical_unpack a.toModel), pack_unpack_eq]

theorem float_mul_one : a * 1 = a := by
  change Float.ofModel (Float.Model.pack (UnpackedFloat.mul .binary64 a.toModel.unpack (1 : Float).toModel.unpack)) = a
  rw [unpack_one, mul_unit (canonical_unpack a.toModel), pack_unpack_eq]

end Operations

end MachineFloat

open MachineFloat in
instance : RoundedArithmetic Float where
  beq_symm equal := BEq.symm equal
  zero_beq_zero := by rfl
  one_beq_one := by rfl
  neg_neg_beq {a} number := by rwa [float_neg_neg]
  one_mul_beq {a} number := by rwa [float_one_mul]
  mul_one_beq {a} number := by rwa [float_mul_one]

end Distillation
