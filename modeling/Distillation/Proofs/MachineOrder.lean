import Mathlib
import Distillation.Proofs.MachineFloat
import Distillation.Proofs.OrderedNumbers

namespace Distillation

namespace MachineFloat

open Float.Model Float.Model.UnpackedFloat

/-- Where a number stands among all. Finite numbers of one sign stand by exponent, then by mantissa. -/
def rank : UnpackedFloat → ℤ ×ₗ ℤ ×ₗ ℤ
  | .infinity .negative => toLex (-2, toLex (0, 0))
  | .finite .negative m e _ => toLex (-1, toLex (-e, -m))
  | .zero _ | .notANumber => toLex (0, toLex (0, 0))
  | .finite .positive m e _ => toLex (1, toLex (e, m))
  | .infinity .positive => toLex (2, toLex (0, 0))

section Unpacked

variable {u v : UnpackedFloat} {e e' : Int} {m m' : Nat}

theorem then_eq_lt_iff : (compare e e').then (compare m m') = .lt ↔ e < e' ∨ e = e' ∧ m < m' := by
  rw [Ordering.then_eq_lt, Int.compare_eq_lt, Int.compare_eq_eq, Nat.compare_eq_lt]

theorem then_swap_eq_lt_iff : ((compare e e').then (compare m m')).swap = .lt ↔ e' < e ∨ e = e' ∧ m' < m := by
  rw [Ordering.swap_eq_lt, Ordering.then_eq_gt, Int.compare_eq_gt, Int.compare_eq_eq, Nat.compare_eq_gt]

/-- Numbers compare as they are ranked. -/
theorem lt_iff : u.lt v = true ↔ u.isNaN = false ∧ v.isNaN = false ∧ rank u < rank v := by
  rw [UnpackedFloat.lt, beq_iff_eq]
  rcases u with (_ | _) | _ | _ | ⟨_ | _, m, e, pos⟩ <;> rcases v with (_ | _) | _ | _ | ⟨_ | _, m', e', pos'⟩
  case finite.negative.finite.negative =>
    simp only [UnpackedFloat.compare, Option.some.injEq, then_swap_eq_lt_iff]
    simp [UnpackedFloat.isNaN, rank, Prod.Lex.toLex_lt_toLex]
  case finite.positive.finite.positive =>
    simp only [UnpackedFloat.compare, Option.some.injEq, then_eq_lt_iff]
    simp [UnpackedFloat.isNaN, rank, Prod.Lex.toLex_lt_toLex]
  all_goals simp [UnpackedFloat.compare, UnpackedFloat.isNaN, rank, Prod.Lex.toLex_lt_toLex, compare]

theorem beq_self_iff : u.beq u = true ↔ u.isNaN = false := by
  rcases u with (_ | _) | _ | _ | ⟨_ | _, m, e, pos⟩ <;>
    simp [UnpackedFloat.beq, UnpackedFloat.compare, UnpackedFloat.isNaN, compare, compareOfLessAndEq]

theorem canonical_abs (canonical : Canonical u) : Canonical u.abs := by
  cases canonical with
  | notANumber => exact .notANumber
  | infinity s => exact .infinity _
  | zero s => exact .zero _
  | finite pos width least largest leading => exact .finite pos width least largest leading

end Unpacked

theorem float_lt_iff {a b : Float} : a < b ↔
    a.isNaN = false ∧ b.isNaN = false ∧ rank a.toModel.unpack < rank b.toModel.unpack :=
  decide_eq_true_iff.trans lt_iff

theorem float_beq_self_iff {a : Float} : (a == a) = true ↔ a.isNaN = false :=
  beq_self_iff

theorem isNaN_abs (a : Float) : a.abs.isNaN = a.isNaN := by
  change (Float.Model.pack a.toModel.unpack.abs).unpack.isNaN = a.toModel.unpack.isNaN
  rw [unpack_pack (canonical_abs (canonical_unpack a.toModel))]
  cases a.toModel.unpack <;> rfl

end MachineFloat

open MachineFloat in
instance : OrderedNumbers Float where
  number_of_lt less := by
    obtain ⟨first, second, _⟩ := float_lt_iff.1 (of_decide_eq_true less)
    exact ⟨float_beq_self_iff.2 first, float_beq_self_iff.2 second⟩
  lt_trans first second := by
    obtain ⟨left, _, below⟩ := float_lt_iff.1 (of_decide_eq_true first)
    obtain ⟨_, right, below'⟩ := float_lt_iff.1 (of_decide_eq_true second)
    exact decide_eq_true (float_lt_iff.2 ⟨left, right, below.trans below'⟩)
  lt_of_not_lt {a b c} other least below := by
    obtain ⟨left, right, less⟩ := float_lt_iff.1 (of_decide_eq_true below)
    have known := float_beq_self_iff.1 other
    have above : rank b.toModel.unpack ≤ rank a.toModel.unpack :=
      le_of_not_gt fun higher => of_decide_eq_false least (float_lt_iff.2 ⟨left, known, higher⟩)
    exact decide_eq_true (float_lt_iff.2 ⟨known, right, above.trans_lt less⟩)

end Distillation
