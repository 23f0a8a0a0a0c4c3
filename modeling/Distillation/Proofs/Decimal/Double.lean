import Mathlib
import Distillation.Proofs.Decimal.Positional
import Distillation.Proofs.MachineFloat

namespace Distillation.Decimal

namespace Interval

open Classical in
/-- The positive double that a number rounds to, itself as a number; zero where there is none. -/
noncomputable def rounded (q : ℚ) : ℚ :=
  if near : ∃ double : ℕ × ℤ, Fits double.1 double.2 ∧ (around double.1 double.2).Contains q then
    near.choose.1 * 2 ^ near.choose.2
  else 0

theorem rounded_of_contains {m : Nat} {e : Int} {q : ℚ} (fits : Fits m e) (inside : (around m e).Contains q) :
    rounded q = m * 2 ^ e := by
  have near : ∃ double : ℕ × ℤ, Fits double.1 double.2 ∧ (around double.1 double.2).Contains q := ⟨(m, e), fits, inside⟩
  rw [rounded, dif_pos near]
  exact eq_of_contains near.choose_spec.1 fits near.choose_spec.2 inside

/-- Nothing that rounds to a positive double is zero. -/
theorem rounded_zero : rounded 0 = 0 := by
  rw [rounded, dif_neg]
  rintro ⟨⟨m, e⟩, fits, inside⟩
  have positive : (1 : ℚ) ≤ m := by exact_mod_cast fits.pos
  have unit : (0 : ℚ) < 2 ^ e := zpow_pos two_pos e
  have low := inside.lower_le
  rw [lower_around fits.pos] at low
  split at low <;> nlinarith

end Interval

open Distillation.Decimal.Interval

theorem isDigit_or_point {d : Digits} {c : Char} (inside : c ∈ d.positional.toList) : c.isDigit = true ∨ c = '.' := by
  rcases Int.lt_or_le d.exponent 0 with fractional | whole
  · obtain ⟨whole, fraction, text, digits, _⟩ := Digits.toList_positional_of_neg fractional
    rw [text, List.mem_append, List.mem_cons] at inside
    rcases inside with before | here | behind
    · exact .inl (digits c (List.mem_append_left _ before))
    · exact .inr here
    · exact .inl (digits c (List.mem_append_right _ behind))
  · rw [Digits.toList_positional_of_nonneg whole, List.mem_append] at inside
    exact .inl (inside.elim isDigit_of_mem_toDigits isDigit_of_mem_replicate)

namespace Binary

/-- The number that a word stands for; zero where it stands for none. -/
def value : Binary → ℚ
  | finite negative m e => if negative then -(m * 2 ^ e) else m * 2 ^ e
  | _ => 0

/-- After its sign, a finite number is written with digits and a point, which read back as its magnitude. -/
theorem positional_reads_back (negative : Bool) {m : Nat} {e : Int} (fits : m = 0 ∨ Fits m e) : ∃ text,
    (finite negative m e).positional.toList = (if negative then '-' :: text else text) ∧
      (∀ c ∈ text, c.isDigit = true ∨ c = '.') ∧ rounded (numeral text) = m * 2 ^ e := by
  have signed (s : String) : ((if negative = true then "-" else "") ++ s).toList =
      if negative then '-' :: s.toList else s.toList := by
    rw [String.toList_append]
    cases negative <;> rfl
  rw [positional]
  split
  · rename_i zero
    refine ⟨['0'], signed "0", List.forall_mem_singleton.2 (.inl rfl), ?_⟩
    rw [numeral_whole (List.forall_mem_singleton.2 rfl), zero, Nat.cast_zero, zero_mul]
    exact rounded_zero
  · rename_i nonzero
    have fits := fits.resolve_left nonzero
    refine ⟨(shortest m e).positional.toList, signed _, fun c => isDigit_or_point, ?_⟩
    rw [Digits.numeral_positional]
    exact rounded_of_contains fits (shortest_contained fits)

end Binary

section Words

open Float.Model Float.Model.UnpackedFloat

/-- A machine float, unpacked, in exact integers. -/
def Binary.ofUnpacked : UnpackedFloat → Binary
  | .notANumber => .notANumber
  | .infinity s => .infinite (s == .negative)
  | .zero s => .finite (s == .negative) 0 leastExponent
  | .finite s m e _ => .finite (s == .negative) m e

theorem isNegative_eq (bits : BitVec 64) :
    (Sign.ofBitVec (@unpackSign Format.binary64 bits) == .negative) = decide (bits.toNat >>> 63 % 2 = 1) := by
  have field : (@unpackSign Format.binary64 bits).toNat = bits.toNat >>> 63 % 2 := by
    simp [unpackSign, BitVec.extractLsb]
  rw [← field]
  generalize @unpackSign Format.binary64 bits = sign
  revert sign
  decide

theorem toNat_unpackExponent (bits : BitVec 64) :
    (@unpackExponent Format.binary64 bits).toNat = bits.toNat >>> 52 % 2048 := by
  simp [unpackExponent, BitVec.extractLsb]

theorem toNat_unpackMantissa (bits : BitVec 64) :
    (@unpackMantissa Format.binary64 bits).toNat = bits.toNat % 2 ^ 52 := by
  simp [unpackMantissa, BitVec.extractLsb]

/-- The fields of a word are what the machine takes it for. -/
theorem ofFloat_eq_unpack (x : Float) : Binary.ofFloat x = .ofUnpacked x.toModel.unpack := by
  have hidden : Binary.hiddenBit = 2 ^ 52 := Nat.one_shiftLeft 52
  change Binary.ofBits x.toBits.toBitVec.toNat = .ofUnpacked (UnpackedFloat.unpack .binary64 x.toBits.toBitVec)
  generalize x.toBits.toBitVec = bits
  have top : @unpackExponent Format.binary64 bits = -1#11 ↔ bits.toNat >>> 52 % 2048 = 2047 := by
    rw [← toNat_unpackExponent, ← BitVec.toNat_inj]
    rfl
  have bottom : @unpackExponent Format.binary64 bits = 0#11 ↔ bits.toNat >>> 52 % 2048 = 0 := by
    rw [← toNat_unpackExponent, ← BitVec.toNat_inj]
    rfl
  have empty : @unpackMantissa Format.binary64 bits = 0#52 ↔ bits.toNat % 2 ^ 52 = 0 := by
    rw [← toNat_unpackMantissa, ← BitVec.toNat_inj]
    rfl
  rw [Binary.ofBits, UnpackedFloat.unpack, hidden]
  simp only [top, bottom, empty]
  split
  · split
    · rw [Binary.ofUnpacked, isNegative_eq]
    · rfl
  · split
    · rename_i subnormal
      split
      · rename_i none
        rw [Binary.ofUnpacked, isNegative_eq, none]
      · rw [Binary.ofUnpacked, isNegative_eq, toNat_unpackMantissa, toNat_unpackExponent, subnormal]
        rfl
    · rw [Binary.ofUnpacked, isNegative_eq, MachineFloat.toNat_one_append, toNat_unpackMantissa, toNat_unpackExponent]
      rfl

/-- A finite double has a mantissa and an exponent that fit. -/
theorem ofFloat_of_isFinite {x : Float} (finite : x.isFinite = true) : ∃ negative m e,
    Binary.ofFloat x = .finite negative m e ∧ (m = 0 ∨ Fits m e) := by
  have known : x.toModel.unpack.isFinite = true := finite
  have canonical := MachineFloat.canonical_unpack x.toModel
  rw [ofFloat_eq_unpack]
  generalize x.toModel.unpack = unpacked at *
  cases canonical with
  | notANumber | infinity s => cases known
  | zero s => exact ⟨_, _, _, rfl, .inl rfl⟩
  | finite pos width least largest leading => exact ⟨_, _, _, rfl, .inr ⟨pos, width, least, largest, leading⟩⟩

end Words

end Distillation.Decimal
