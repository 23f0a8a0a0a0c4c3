import Mathlib.Algebra.Order.BigOperators.Group.List
import Mathlib.Analysis.Real.Sqrt
import Mathlib.Tactic.FieldSimp
import Mathlib.Topology.Order.IntermediateValue

namespace Distillation

/-- Some of each of one or more components, with the ratio of the share in the vapor to that in the liquid. -/
structure Mixture (ι : Type) where
  parts : List ι
  amount : ι → ℝ
  factor : ι → ℝ
  nonempty : parts ≠ []
  amount_pos : ∀ i ∈ parts, 0 < amount i
  factor_pos : ∀ i ∈ parts, 0 < factor i

namespace Mixture

open Set

variable {ι : Type} (mixture : Mixture ι)

def total (quantity : ι → ℝ) : ℝ :=
  (mixture.parts.map quantity).sum

/-- How much there is of a component for each unit of it that there would be if all were like the liquid. -/
def spread (vaporized : ℝ) (i : ι) : ℝ :=
  1 + vaporized * (mixture.factor i - 1)

/-- How much there would be of a component if all were like the liquid. -/
noncomputable def drawn (vaporized : ℝ) (i : ι) : ℝ :=
  mixture.amount i / mixture.spread vaporized i

/-- How much more there would be if all were like the vapor than if all were like the liquid. -/
noncomputable def excess (vaporized : ℝ) : ℝ :=
  mixture.total fun i => (mixture.factor i - 1) * mixture.drawn vaporized i

/-- The amounts in the liquid and in the vapor make up the mixture, and the shares in both are as they are to be. -/
structure Splits (liquid vapor : ι → ℝ) : Prop where
  liquid_pos : 0 < mixture.total liquid
  vapor_pos : 0 < mixture.total vapor
  whole : ∀ i ∈ mixture.parts, liquid i + vapor i = mixture.amount i
  related : ∀ i ∈ mixture.parts, vapor i / mixture.total vapor = mixture.factor i * (liquid i / mixture.total liquid)

variable {mixture} {i : ι} {vaporized : ℝ} {liquid vapor : ι → ℝ}

section Totals

variable {f g : ι → ℝ}

theorem total_congr (same : ∀ i ∈ mixture.parts, f i = g i) : mixture.total f = mixture.total g :=
  congrArg List.sum (List.map_congr_left same)

theorem total_sub : (mixture.total fun i => f i - g i) = mixture.total f - mixture.total g := by
  have apart : (mixture.total fun i => f i - g i + g i) = (mixture.total fun i => f i - g i) + mixture.total g :=
    List.sum_map_add ..
  rw [eq_sub_iff_add_eq, ← apart]
  exact total_congr fun i _ => sub_add_cancel _ _

theorem total_mul_left (a : ℝ) : (mixture.total fun i => a * f i) = a * mixture.total f :=
  List.sum_map_mul_left ..

theorem total_pos (positive : ∀ i ∈ mixture.parts, 0 < f i) : 0 < mixture.total f :=
  List.sum_pos _ (List.forall_mem_map.2 positive) (List.map_eq_nil_iff.not.2 mixture.nonempty)

end Totals

theorem spread_eq : mixture.spread vaporized i = 1 - vaporized + vaporized * mixture.factor i := by
  rw [spread]
  ring

section Parts

variable (inside : i ∈ mixture.parts) (part : vaporized ∈ Icc 0 1)
include inside part

theorem spread_pos : 0 < mixture.spread vaporized i := by
  rw [spread_eq]
  rcases part.1.eq_or_lt with rfl | low
  · norm_num
  · exact add_pos_of_nonneg_of_pos (sub_nonneg.2 part.2) (mul_pos low (mixture.factor_pos i inside))

theorem drawn_pos : 0 < mixture.drawn vaporized i :=
  div_pos (mixture.amount_pos i inside) (spread_pos inside part)

theorem drawn_eq_iff {a : ℝ} : mixture.drawn vaporized i = a ↔ mixture.amount i = a * mixture.spread vaporized i :=
  div_eq_iff (spread_pos inside part).ne'

end Parts

section Zeros

/-- The more is vapor, the less each component adds to the excess. -/
theorem excess_strictAntiOn (apart : ∃ i ∈ mixture.parts, mixture.factor i ≠ 1) :
    StrictAntiOn mixture.excess (Icc 0 1) := by
  intro a low b high less
  have change : ∀ i ∈ mixture.parts,
      (mixture.factor i - 1) * mixture.drawn a i - (mixture.factor i - 1) * mixture.drawn b i =
        (b - a) * (mixture.drawn a i / mixture.spread b i) * (mixture.factor i - 1) ^ 2 := by
    intro i inside
    have before := (spread_pos inside low).ne'
    have after := (spread_pos inside high).ne'
    rw [drawn, drawn]
    field_simp
    simp only [spread]
    ring
  have slope : ∀ i ∈ mixture.parts, 0 < (b - a) * (mixture.drawn a i / mixture.spread b i) := fun i inside =>
    mul_pos (sub_pos.2 less) (div_pos (drawn_pos inside low) (spread_pos inside high))
  obtain ⟨j, among, other⟩ := apart
  refine List.sum_lt_sum _ _ (fun i inside => ?_) ⟨j, among, ?_⟩
  · rw [← sub_nonneg, change i inside]
    exact mul_nonneg (slope i inside).le (sq_nonneg _)
  · rw [← sub_pos, change j among]
    exact mul_pos (slope j among) (sq_pos_of_ne_zero (sub_ne_zero.2 other))

theorem excess_continuousOn : ContinuousOn mixture.excess (Icc 0 1) := by
  refine continuousOn_list_sum _ fun i inside => continuousOn_const.mul (continuousOn_const.div ?_ ?_)
  · exact continuousOn_const.add (continuousOn_id.mul continuousOn_const)
  · exact fun _ part => (spread_pos inside part).ne'

theorem excess_zero : mixture.excess 0 =
    (mixture.total fun i => mixture.amount i * mixture.factor i) - mixture.total mixture.amount := by
  rw [← total_sub]
  refine total_congr fun i _ => ?_
  rw [drawn, spread]
  ring

theorem excess_one : mixture.excess 1 =
    mixture.total mixture.amount - mixture.total fun i => mixture.amount i / mixture.factor i := by
  rw [← total_sub]
  refine total_congr fun i inside => ?_
  have factor := (mixture.factor_pos i inside).ne'
  rw [drawn, spread, one_mul, add_sub_cancel]
  field_simp

/-- Some part may be vapor if neither phase could hold all. -/
theorem exists_zero_iff (apart : ∃ i ∈ mixture.parts, mixture.factor i ≠ 1) :
    (∃ vaporized ∈ Ioo 0 1, mixture.excess vaporized = 0) ↔
      (mixture.total mixture.amount < mixture.total fun i => mixture.amount i * mixture.factor i) ∧
        mixture.total mixture.amount < mixture.total fun i => mixture.amount i / mixture.factor i := by
  have falls := excess_strictAntiOn apart
  rw [← sub_pos, ← excess_zero, ← @sub_neg _ _ _ _ (mixture.total mixture.amount), ← excess_one]
  constructor
  · rintro ⟨vaporized, part, zero⟩
    have inside := Ioo_subset_Icc_self part
    exact ⟨zero ▸ falls (left_mem_Icc.2 zero_le_one) inside part.1,
      zero ▸ falls inside (right_mem_Icc.2 zero_le_one) part.2⟩
  · rintro ⟨above, below⟩
    exact intermediate_value_Ioo' zero_le_one excess_continuousOn ⟨below, above⟩

end Zeros

section Amounts

/-- The part of the whole that is vapor is a zero of the excess, and both phases are known with it. -/
theorem Splits.exists_zero (splits : mixture.Splits liquid vapor) : ∃ vaporized ∈ Ioo 0 1,
    mixture.excess vaporized = 0 ∧ ∀ i ∈ mixture.parts,
      liquid i = (1 - vaporized) * mixture.drawn vaporized i ∧
      vapor i = vaporized * (mixture.factor i * mixture.drawn vaporized i) := by
  obtain ⟨someLiquid, someVapor, whole, related⟩ := splits
  generalize total_liquid : mixture.total liquid = L at *
  generalize total_vapor : mixture.total vapor = V at *
  have all : 0 < L + V := add_pos someLiquid someVapor
  have part : V / (L + V) ∈ Ioo 0 1 :=
    ⟨div_pos someVapor all, (div_lt_one all).2 (lt_add_of_pos_left _ someLiquid)⟩
  have vapor_eq : ∀ i ∈ mixture.parts, vapor i = mixture.factor i * (liquid i / L) * V := fun i inside =>
    (div_eq_iff someVapor.ne').1 (related i inside)
  have drawn : ∀ i ∈ mixture.parts, mixture.drawn (V / (L + V)) i = (L + V) * (liquid i / L) := by
    intro i inside
    rw [drawn_eq_iff inside (Ioo_subset_Icc_self part), ← whole i inside, vapor_eq i inside, spread]
    field_simp
    ring
  refine ⟨V / (L + V), part, ?_, fun i inside => ?_⟩
  · have shares : ∀ i ∈ mixture.parts, (mixture.factor i - 1) * mixture.drawn (V / (L + V)) i =
        (L + V) * (V⁻¹ * vapor i - L⁻¹ * liquid i) := by
      intro i inside
      rw [drawn i inside, inv_mul_eq_div, inv_mul_eq_div, related i inside]
      ring
    rw [excess, total_congr shares, total_mul_left, total_sub, total_mul_left, total_mul_left, total_liquid,
      total_vapor, inv_mul_cancel₀ someVapor.ne', inv_mul_cancel₀ someLiquid.ne', sub_self, mul_zero]
  · rw [drawn i inside, vapor_eq i inside]
    constructor
    · field_simp
      ring
    · field_simp

theorem splits_of_zero (part : vaporized ∈ Ioo 0 1) (zero : mixture.excess vaporized = 0)
    (flows : ∀ i ∈ mixture.parts, liquid i = (1 - vaporized) * mixture.drawn vaporized i ∧
      vapor i = vaporized * (mixture.factor i * mixture.drawn vaporized i)) : mixture.Splits liquid vapor := by
  have inside := Ioo_subset_Icc_self part
  have rest : 0 < 1 - vaporized := sub_pos.2 part.2
  have alike : (mixture.total fun i => mixture.factor i * mixture.drawn vaporized i) =
      mixture.total (mixture.drawn vaporized) := by
    rw [← sub_eq_zero, ← total_sub, ← zero, excess]
    exact total_congr fun i _ => by ring
  have drawn : 0 < mixture.total (mixture.drawn vaporized) := total_pos fun i among => drawn_pos among inside
  have total_liquid : mixture.total liquid = (1 - vaporized) * mixture.total (mixture.drawn vaporized) := by
    rw [← total_mul_left]
    exact total_congr fun i among => (flows i among).1
  have total_vapor : mixture.total vapor = vaporized * mixture.total (mixture.drawn vaporized) := by
    rw [← alike, ← total_mul_left]
    exact total_congr fun i among => (flows i among).2
  refine ⟨total_liquid ▸ mul_pos rest drawn, total_vapor ▸ mul_pos part.1 drawn, fun i among => ?_, fun i among => ?_⟩
  · rw [(flows i among).1, (flows i among).2, (drawn_eq_iff among inside).1 rfl, spread_eq]
    ring
  · rw [(flows i among).1, (flows i among).2, total_liquid, total_vapor, mul_div_mul_left _ _ part.1.ne',
      mul_div_mul_left _ _ rest.ne', mul_div_assoc]

theorem Splits.congr (splits : mixture.Splits liquid vapor) {liquid' vapor' : ι → ℝ}
    (same : ∀ i ∈ mixture.parts, liquid' i = liquid i ∧ vapor' i = vapor i) : mixture.Splits liquid' vapor' := by
  obtain ⟨vaporized, part, zero, flows⟩ := splits.exists_zero
  refine splits_of_zero part zero fun i inside => ?_
  rw [(same i inside).1, (same i inside).2]
  exact flows i inside

/-- There is a split wherever neither phase could hold all. -/
theorem exists_splits_iff (apart : ∃ i ∈ mixture.parts, mixture.factor i ≠ 1) :
    (∃ liquid vapor, mixture.Splits liquid vapor) ↔
      (mixture.total mixture.amount < mixture.total fun i => mixture.amount i * mixture.factor i) ∧
        mixture.total mixture.amount < mixture.total fun i => mixture.amount i / mixture.factor i := by
  rw [← exists_zero_iff apart]
  constructor
  · rintro ⟨liquid, vapor, splits⟩
    obtain ⟨vaporized, part, zero, _⟩ := splits.exists_zero
    exact ⟨vaporized, part, zero⟩
  · rintro ⟨vaporized, part, zero⟩
    exact ⟨_, _, splits_of_zero part zero fun _ _ => ⟨rfl, rfl⟩⟩

/-- Only one part of the whole can be vapor, and so there is one split at most. -/
theorem Splits.unique (apart : ∃ i ∈ mixture.parts, mixture.factor i ≠ 1) (splits : mixture.Splits liquid vapor)
    {liquid' vapor' : ι → ℝ} (splits' : mixture.Splits liquid' vapor') :
    ∀ i ∈ mixture.parts, liquid' i = liquid i ∧ vapor' i = vapor i := by
  obtain ⟨vaporized, part, zero, flows⟩ := splits.exists_zero
  obtain ⟨vaporized', part', zero', flows'⟩ := splits'.exists_zero
  obtain rfl := (excess_strictAntiOn apart).injOn (Ioo_subset_Icc_self part) (Ioo_subset_Icc_self part')
    (zero.trans zero'.symm)
  intro i inside
  rw [(flows i inside).1, (flows i inside).2, (flows' i inside).1, (flows' i inside).2]
  exact ⟨rfl, rfl⟩

theorem Splits.pos (splits : mixture.Splits liquid vapor) : ∀ i ∈ mixture.parts, 0 < liquid i ∧ 0 < vapor i := by
  obtain ⟨vaporized, part, _, flows⟩ := splits.exists_zero
  intro i inside
  have drawn := drawn_pos inside (Ioo_subset_Icc_self part)
  rw [(flows i inside).1, (flows i inside).2]
  exact ⟨mul_pos (sub_pos.2 part.2) drawn, mul_pos part.1 (mul_pos (mixture.factor_pos i inside) drawn)⟩

end Amounts

end Mixture

end Distillation
