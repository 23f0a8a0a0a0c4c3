import Distillation.Expr.Text
import Distillation.Proofs.Expr.Normal
import Distillation.Proofs.MachineFloat

namespace Distillation

namespace Expr

variable {K : Type} [Scalar K]

/-- Every constant equals itself. -/
inductive Numeric : Expr K → Prop
  | const {c : K} (number : (c == c) = true) : Numeric (const c)
  | var (v : VarId) : Numeric (var v)
  | sum {terms : List (Expr K)} (each : ∀ term ∈ terms, Numeric term) : Numeric (sum terms)
  | product {a b : Expr K} (first : Numeric a) (second : Numeric b) : Numeric (product a b)
  | quotient {a b : Expr K} (upper : Numeric a) (lower : Numeric b) : Numeric (quotient a b)
  | neg {a : Expr K} (inner : Numeric a) : Numeric (neg a)

section Comparison

variable {a b : Expr K}

theorem const_beq (c d : K) : (const c == const d) = (c == d) := by
  change same (const c) (const d) = _
  rw [same]

theorem sameTerms_refl {terms : List (Expr K)} (each : ∀ term ∈ terms, same term term = true) :
    sameTerms terms terms = true := by
  induction terms with
  | nil => rw [sameTerms]
  | cons term rest ih =>
    obtain ⟨first, later⟩ := List.forall_mem_cons.1 each
    rw [sameTerms, first, ih later, Bool.and_self]

theorem Numeric.same_self (numeric : a.Numeric) : same a a = true := by
  induction numeric with
  | const number => rw [same, number]
  | var v => rw [same, beq_self_eq_true]
  | sum _ ih => rw [same, sameTerms_refl ih]
  | product _ _ iha ihb => rw [same, iha, ihb, Bool.and_self]
  | quotient _ _ iha ihb => rw [same, iha, ihb, Bool.and_self]
  | neg _ ih => rw [same, ih]

theorem Numeric.beq_of_eq (numeric : b.Numeric) (equal : a = b) : (a == b) = true :=
  equal ▸ numeric.same_self

end Comparison

section Numbers

variable {terms : List (Expr K)}

theorem Numeric.flatten (each : ∀ term ∈ terms, Numeric term) : ∀ term ∈ Expr.flatten terms, Numeric term := by
  fun_induction Expr.flatten terms with
  | case1 => exact each
  | case2 inner rest ih =>
    obtain ⟨opened, others⟩ := List.forall_mem_cons.1 each
    cases opened with
    | sum own => exact List.forall_mem_append.2 ⟨own, ih others⟩
  | case3 c rest zero ih => exact ih (List.forall_mem_cons.1 each).2
  | case4 c rest nonzero ih =>
    obtain ⟨first, others⟩ := List.forall_mem_cons.1 each
    exact List.forall_mem_cons.2 ⟨first, ih others⟩
  | case5 term rest notSum notConst ih =>
    obtain ⟨first, others⟩ := List.forall_mem_cons.1 each
    exact List.forall_mem_cons.2 ⟨first, ih others⟩

theorem Numeric.total [RoundedArithmetic K] (each : ∀ term ∈ terms, Numeric term) : Numeric (Expr.total terms) := by
  have opened := Numeric.flatten each
  rw [Expr.total]
  generalize Expr.flatten terms = flattened at opened ⊢
  rcases flattened with _ | ⟨term, _ | ⟨second, rest⟩⟩
  · exact .const RoundedArithmetic.zero_beq_zero
  · exact opened term List.mem_cons_self
  · exact .sum opened

theorem Numeric.add [RoundedArithmetic K] {a b : Expr K} (first : Numeric a) (second : Numeric b) : Numeric (a + b) :=
  Numeric.total (List.forall_mem_cons.2 ⟨first, List.forall_mem_singleton.2 second⟩)

end Numbers

section Terms

omit [Scalar K]
variable [Zero K] [BEq K]

theorem flatten_append (xs ys : List (Expr K)) : flatten (xs ++ ys) = flatten xs ++ flatten ys := by
  fun_induction flatten xs with
  | case1 => rfl
  | case2 inner rest ih => rw [List.cons_append, flatten, ih, List.append_assoc]
  | case3 c rest zero ih => rw [List.cons_append, flatten, if_pos zero, ih]
  | case4 c rest nonzero ih => rw [List.cons_append, flatten, if_neg nonzero, ih, List.cons_append]
  | case5 term rest notSum notConst ih => rw [List.cons_append, flatten, ih, List.cons_append] <;> assumption

theorem flatten_of_isTerm {term : Expr K} (own : term.isTerm = true) : flatten [term] = [term] := by
  cases term with
  | sum inner => cases own
  | const c =>
    have nonzero : (c == 0) = false := by simpa [isTerm] using own
    simp [flatten, nonzero]
  | var _ | product _ _ | quotient _ _ | neg _ => simp [flatten]

theorem flatten_sum (terms : List (Expr K)) : flatten [sum terms] = terms := by
  rw [flatten, flatten, List.append_nil]

omit [BEq K] in
theorem ofTerms_of_several {terms : List (Expr K)} (several : 2 ≤ terms.length) : ofTerms terms = sum terms := by
  match terms, several with
  | _ :: _ :: _, _ => rfl

/-- A sum of terms is opened into those terms again. -/
theorem flatten_ofTerms {terms : List (Expr K)} (zero : ((0 : K) == 0) = true)
    (each : ∀ term ∈ terms, term.isTerm = true) : flatten [ofTerms terms] = terms := by
  rcases terms with _ | ⟨term, _ | ⟨second, rest⟩⟩
  · simp [ofTerms, flatten, zero]
  · exact flatten_of_isTerm (each term List.mem_cons_self)
  · exact flatten_sum _

end Terms

section Sums

variable [RoundedArithmetic K] {a b c : Expr K} {xs ys : List (Expr K)}

/-- A sum stands for the terms that it is made of. -/
theorem flatten_total (normal : ∀ x ∈ xs, Normal x) : flatten [total xs] = flatten xs :=
  flatten_ofTerms RoundedArithmetic.zero_beq_zero fun term inside => (Normal.flatten normal term inside).1

/-- A sum among some terms may be opened. -/
theorem total_total_cons (normal : ∀ x ∈ xs, Normal x) (ys : List (Expr K)) :
    total (total xs :: ys) = total (xs ++ ys) := by
  have opened : flatten (total xs :: ys) = flatten [total xs] ++ flatten ys := flatten_append [total xs] ys
  rw [total, opened, flatten_total normal, ← flatten_append, total]

theorem total_append_total (xs : List (Expr K)) (normal : ∀ y ∈ ys, Normal y) :
    total (xs ++ [total ys]) = total (xs ++ ys) := by
  rw [total, flatten_append, flatten_total normal, ← flatten_append, total]

theorem add_assoc_of_normal (normalA : Normal a) (normalB : Normal b) (normalC : Normal c) : a + b + c = a + (b + c) := by
  have left : ∀ x ∈ [a, b], Normal x := List.forall_mem_cons.2 ⟨normalA, List.forall_mem_singleton.2 normalB⟩
  have right : ∀ x ∈ [b, c], Normal x := List.forall_mem_cons.2 ⟨normalB, List.forall_mem_singleton.2 normalC⟩
  calc a + b + c
    _ = total [a, b, c] := total_total_cons left [c]
    _ = a + (b + c) := (total_append_total [a] right).symm

/-- The sum of two lists together is the sum of their sums. -/
theorem total_append (normalXs : ∀ x ∈ xs, Normal x) (normalYs : ∀ y ∈ ys, Normal y) :
    total (xs ++ ys) = total xs + total ys := by
  calc total (xs ++ ys)
    _ = total (xs ++ [total ys]) := (total_append_total xs normalYs).symm
    _ = total xs + total ys := (total_total_cons normalXs [total ys]).symm

omit [RoundedArithmetic K] in
/-- A single term is its own sum, but for the sign of a zero. -/
theorem total_singleton (normal : Normal a) : total [a] = a ∨ ∃ c : K, a = const c ∧ (c == 0) = true ∧ total [a] = 0 := by
  cases normal with
  | sum several _ _ => exact .inl (by rw [total, flatten_sum, ofTerms_of_several several])
  | const c =>
    cases zero : c == 0 with
    | true => exact .inr ⟨c, rfl, zero, by simp [total, flatten, zero, ofTerms, zero_def]⟩
    | false => exact .inl (by simp [total, flatten, zero, ofTerms])
  | var _ | product _ _ _ _ _ | quotient _ _ | neg _ _ => exact .inl (by simp [total, flatten, ofTerms])

theorem total_singleton_beq (normal : Normal a) (numeric : a.Numeric) : (total [a] == a) = true ∧ (a == total [a]) = true := by
  rcases total_singleton normal with same | ⟨c, rfl, zero, same⟩
  · rw [same]
    exact ⟨numeric.same_self, numeric.same_self⟩
  · rw [same, zero_def, const_beq, const_beq]
    exact ⟨RoundedArithmetic.beq_symm zero, zero⟩

/-- Zero is no term of a sum. -/
theorem zero_add_eq (a : Expr K) : 0 + a = total [a] := by
  have none : flatten [(0 : Expr K), a] = flatten [a] := by
    rw [zero_def, flatten, if_pos RoundedArithmetic.zero_beq_zero]
  rw [add_def, total, none, total]

theorem add_zero_eq (a : Expr K) : a + 0 = total [a] := by
  have none : flatten [a, (0 : Expr K)] = flatten [a] := by
    rw [show [a, (0 : Expr K)] = [a] ++ [0] from rfl, flatten_append, zero_def]
    simp [flatten, RoundedArithmetic.zero_beq_zero]
  rw [add_def, total, none, total]

end Sums

section Factors

variable [RoundedArithmetic K] {a : Expr K}

theorem neg_neg_beq (normal : Normal a) (numeric : a.Numeric) : (-(-a) == a) = true := by
  cases normal with
  | const c =>
    cases numeric with
    | const number => rw [neg_const, neg_const, const_beq, RoundedArithmetic.neg_neg_beq number]
  | neg negatable inner =>
    refine numeric.beq_of_eq ?_
    rw [neg_neg_node]
    rename_i inner
    cases inner with
    | const _ | neg _ => cases negatable
    | var _ | sum _ | product _ _ | quotient _ _ => rfl
  | var _ | sum _ _ _ | product _ _ _ _ _ | quotient _ _ => exact numeric.beq_of_eq rfl

theorem one_mul_beq (numeric : a.Numeric) : (const 1 * a == a) = true := by
  cases a with
  | const c =>
    cases numeric with
    | const number => exact (const_beq _ _).trans (RoundedArithmetic.one_mul_beq number)
  | var _ | sum _ | product _ _ | quotient _ _ | neg _ =>
    exact numeric.beq_of_eq (by simp [mul_def, multiply, toConst?, RoundedArithmetic.one_beq_one])

theorem beq_mul_one (numeric : a.Numeric) : (a == a * const 1) = true := by
  cases a with
  | const c =>
    cases numeric with
    | const number => exact (const_beq _ _).trans (RoundedArithmetic.beq_symm (RoundedArithmetic.mul_one_beq number))
  | var _ | sum _ | product _ _ | quotient _ _ | neg _ =>
    refine Eq.trans (congrArg (BEq.beq _) ?_) numeric.same_self
    simp [mul_def, multiply, toConst?, RoundedArithmetic.one_beq_one]

end Factors

section Laws

variable [RoundedArithmetic K] {a b c : Expr K} {xs ys : List (Expr K)}

/-- Built expressions without a constant that is not a number add up as lists do, with zero for the empty list, and
double negation and the factor one leave them as they are. -/
theorem built_laws (each : ∀ e ∈ a :: b :: c :: (xs ++ ys), e.Built ∧ e.Numeric) :
    (a + b + c == a + (b + c)) = true ∧
    (0 + a == a) = true ∧ (a == a + 0) = true ∧
    (total (xs ++ ys) == total xs + total ys) = true ∧
    (total [a] == a) = true ∧
    (-(-a) == a) = true ∧
    (const 1 * a == a) = true ∧ (a == a * const 1) = true := by
  have normal : ∀ e ∈ a :: b :: c :: (xs ++ ys), e.Normal := fun e inside => (each e inside).1.normal
  have numeric : ∀ e ∈ a :: b :: c :: (xs ++ ys), e.Numeric := fun e inside => (each e inside).2
  obtain ⟨normalA, normalB, normalC, normalBoth⟩ := by simpa only [List.forall_mem_cons] using normal
  obtain ⟨numericA, numericB, numericC, numericBoth⟩ := by simpa only [List.forall_mem_cons] using numeric
  obtain ⟨normalXs, normalYs⟩ := List.forall_mem_append.1 normalBoth
  obtain ⟨numericXs, numericYs⟩ := List.forall_mem_append.1 numericBoth
  obtain ⟨single, single'⟩ := total_singleton_beq normalA numericA
  refine ⟨?assoc, ?zeroLeft, ?zeroRight, ?append, single, neg_neg_beq normalA numericA, one_mul_beq numericA,
    beq_mul_one numericA⟩
  case assoc =>
    refine Numeric.beq_of_eq ?_ (add_assoc_of_normal normalA normalB normalC)
    exact Numeric.add numericA (Numeric.add numericB numericC)
  case zeroLeft => rwa [zero_add_eq]
  case zeroRight => rwa [add_zero_eq]
  case append =>
    refine Numeric.beq_of_eq ?_ (total_append normalXs normalYs)
    exact Numeric.add (Numeric.total numericXs) (Numeric.total numericYs)

/-- A negative zero and infinite constants obey the laws, alone and within sums. -/
theorem built_laws_of_floats :
    (∀ e ∈ [const (-0), var 1 + const (1 / 0), -var 0, -var 0 + var 1, 0, const (1 / 0), total []],
      (e : Expr Float).Built ∧ e.Numeric) ∧
    (const (-0) + (var 1 + const (1 / 0)) + -var 0 == const (-0 : Float) + (var 1 + const (1 / 0) + -var 0)) = true ∧
    (0 + const (-0) == const (-0 : Float)) = true ∧
    (total ([-var 0 + var 1, 0] ++ [const (1 / 0), total []]) ==
      total [-var 0 + var 1, 0] + total [const (1 / 0 : Float), total []]) = true := by
  have each : ∀ e ∈ [const (-0), var 1 + const (1 / 0), -var 0, -var 0 + var 1, 0, const (1 / 0), total []],
      (e : Expr Float).Built ∧ e.Numeric := by
    have infinite : (1 / 0 : Float) == 1 / 0 := by decide +kernel
    have zero : (-0 : Float) == -0 := by decide +kernel
    have negated : (-var 0 : Expr Float).Numeric := .neg (.var 0)
    simp only [List.forall_mem_cons]
    exact ⟨⟨.const _, .const zero⟩, ⟨.add (.var 1) (.const _), .add (.var 1) (.const infinite)⟩,
      ⟨.neg (.var 0), negated⟩, ⟨.add (.neg (.var 0)) (.var 1), .add negated (.var 1)⟩,
      ⟨.const 0, .const RoundedArithmetic.zero_beq_zero⟩, ⟨.const _, .const infinite⟩,
      ⟨.total (by simp), .total (by simp)⟩, by simp⟩
  obtain ⟨assoc, zeroLeft, _, append, _⟩ := @built_laws Float _ _ (const (-0)) (var 1 + const (1 / 0)) (-var 0)
    [-var 0 + var 1, 0] [const (1 / 0), total []] each
  exact ⟨each, assoc, zeroLeft, append⟩

end Laws

end Expr

end Distillation
