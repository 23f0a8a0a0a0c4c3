import Mathlib
import Distillation.Proofs.MachineFloat

namespace Distillation

/-- A finite number cancels against itself, and what is left stays zero in a quotient. -/
class CancellingArithmetic (K : Type) [Scalar K] : Prop where
  sub_self_beq {a : K} : Scalar.isFinite a = true → (a - a == 0) = true
  zero_div_beq {a h : K} : (a == 0) = true → Scalar.isFinite h = true → (h == 0) = false → (a / h == 0) = true

instance : CancellingArithmetic ℝ where
  sub_self_beq _ := beq_iff_eq.2 (sub_self _)
  zero_div_beq zero _ _ := beq_iff_eq.2 (by rw [beq_iff_eq.1 zero, zero_div])

namespace MachineFloat

open Float.Model Float.Model.UnpackedFloat

variable {u v : UnpackedFloat}

/-- The difference of equal mantissas under one exponent is nothing to round. -/
theorem sub_self_of_isFinite (finite : u.isFinite = true) : UnpackedFloat.sub .binary64 u u = .zero .positive := by
  cases u with
  | notANumber | infinity s => cases finite
  | zero s => cases s <;> rfl
  | finite s m e pos => simp [UnpackedFloat.sub, UnpackedFloat.normalize]

theorem zero_div_of_isFinite {s : Sign} (finite : v.isFinite = true) (nonzero : ∀ s, v ≠ .zero s) :
    ∃ s', UnpackedFloat.div .binary64 (.zero s) v = .zero s' := by
  cases v with
  | notANumber | infinity s => cases finite
  | zero s => exact absurd rfl (nonzero s)
  | finite s' m e pos => exact ⟨_, rfl⟩

theorem beq_zero_iff {a : Float} : (a == 0) = true ↔ ∃ s, a.toModel.unpack = .zero s := by
  change UnpackedFloat.beq a.toModel.unpack (.zero .positive) = true ↔ _
  rcases a.toModel.unpack with (_ | _) | _ | s | ⟨_ | _, m, e, pos⟩ <;>
    simp [UnpackedFloat.beq, UnpackedFloat.compare]

theorem float_sub_self {a : Float} (finite : a.isFinite = true) : (a - a == 0) = true := by
  refine beq_zero_iff.2 ⟨.positive, ?_⟩
  change (Float.Model.pack (UnpackedFloat.sub .binary64 a.toModel.unpack a.toModel.unpack)).unpack = _
  rw [sub_self_of_isFinite finite, unpack_pack (.zero _)]

theorem float_zero_div {a h : Float} (zero : (a == 0) = true) (finite : h.isFinite = true)
    (nonzero : (h == 0) = false) : (a / h == 0) = true := by
  obtain ⟨s, vanishes⟩ := beq_zero_iff.1 zero
  have other : ∀ s, h.toModel.unpack ≠ .zero s := fun s same =>
    Bool.false_ne_true (nonzero.symm.trans (beq_zero_iff.2 ⟨s, same⟩))
  obtain ⟨s', quotient⟩ := zero_div_of_isFinite (s := s) finite other
  refine beq_zero_iff.2 ⟨s', ?_⟩
  change (Float.Model.pack (UnpackedFloat.div .binary64 a.toModel.unpack h.toModel.unpack)).unpack = _
  rw [vanishes, quotient, unpack_pack (.zero _)]

end MachineFloat

instance : CancellingArithmetic Float where
  sub_self_beq := MachineFloat.float_sub_self
  zero_div_beq := MachineFloat.float_zero_div

end Distillation
