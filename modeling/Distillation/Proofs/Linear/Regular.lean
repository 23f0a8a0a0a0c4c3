import Mathlib.Algebra.BigOperators.Group.List.Lemmas
import Mathlib.Data.List.Perm.Basic
import Mathlib.Tactic.FieldSimp
import Mathlib.Tactic.LinearCombination
import Distillation.Linear.Elimination
import Distillation.Newton.Solver
import Distillation.Proofs.RealScalar

namespace Distillation.Linear

noncomputable def dot (a x : List ℝ) : ℝ :=
  (List.zipWith (· * ·) a x).sum

@[simp] theorem dot_nil (x : List ℝ) : dot [] x = 0 := rfl

@[simp] theorem dot_cons (a x : ℝ) (as xs : List ℝ) : dot (a :: as) (x :: xs) = a * x + dot as xs := by
  simp [dot]

theorem dot_zeros (as : List ℝ) (n : Nat) : dot as (List.replicate n 0) = 0 := by
  induction as generalizing n with
  | nil => rfl
  | cons a as ih =>
    cases n with
    | zero => simp [dot]
    | succ n => rw [List.replicate_succ, dot_cons, ih, mul_zero, add_zero]

/-- The matrix takes nothing but zeros to zeros. -/
def Regular (matrix : List (List ℝ)) : Prop :=
  ∀ y : List ℝ, y.length = matrix.length → (∀ row ∈ matrix, dot row y = 0) → ∀ a ∈ y, a = 0

/-- A linear solver that finds the solution of every regular square system. -/
def Exact (linear : Newton.LinearSolver ℝ) : Prop :=
  ∀ (matrix : List (List ℝ)) (right : List ℝ), right.length = matrix.length →
    (∀ row ∈ matrix, row.length = matrix.length) → Regular matrix →
    ∃ x, linear matrix right = some x ∧ x.length = matrix.length ∧
      matrix.map (dot · x) = right

/-- A linear solver that fails on a square system exactly if the system is singular. -/
structure Decisive (linear : Newton.LinearSolver ℝ) : Prop where
  exact : Exact linear
  singular : ∀ (matrix : List (List ℝ)) (right : List ℝ), right.length = matrix.length →
    (∀ row ∈ matrix, row.length = matrix.length) → ¬Regular matrix → linear matrix right = none

theorem pivotFrom_largest (all : List (Row ℝ)) (rest : List (Row ℝ)) :
    ∀ (best : Nat × ℝ) (position : Nat), all.drop position = rest →
      (∃ row, all[best.1]? = some row ∧ |row.leading| = best.2) →
      (∀ row ∈ all.take position, |row.leading| ≤ best.2) →
      ∃ row, all[(pivotFrom best position rest).1]? = some row ∧
        ∀ other ∈ all, |other.leading| ≤ |row.leading| := by
  induction rest with
  | nil =>
    rintro best position seen ⟨row, found, size⟩ largest
    have whole : all.take position = all := List.take_of_length_le (List.drop_eq_nil_iff.1 seen)
    exact ⟨row, found, fun other inside => size ▸ largest other (whole.symm ▸ inside)⟩
  | cons row rest ih =>
    rintro best position seen ⟨pivot, found, size⟩ largest
    have here : all[position]? = some row := by
      rw [← List.head?_drop, seen, List.head?_cons]
    have later : all.drop (position + 1) = rest := by
      rw [← List.tail_drop, seen, List.tail_cons]
    have taken : all.take (position + 1) = all.take position ++ [row] := by
      rw [List.take_add_one, here, Option.toList_some]
    rw [pivotFrom]
    by_cases less : best.2 < |row.leading|
    · rw [if_pos (by simpa using less)]
      refine ih _ _ later ⟨row, here, rfl⟩ fun other inside => ?_
      rw [taken, List.mem_append, List.mem_singleton] at inside
      rcases inside with before | rfl
      · exact (largest other before).trans less.le
      · exact le_rfl
    · rw [if_neg (by simpa using less)]
      refine ih _ _ later ⟨pivot, found, size⟩ fun other inside => ?_
      rw [taken, List.mem_append, List.mem_singleton] at inside
      rcases inside with before | rfl
      · exact largest other before
      · exact le_of_not_gt less

/-- An exchange keeps the rows and puts one of largest leading coefficient on top. -/
theorem exchange_largest (top : Row ℝ) (rows : List (Row ℝ)) :
    ∃ pivot others, exchange top rows = (pivot, others) ∧ (pivot :: others).Perm (top :: rows) ∧
      ∀ other ∈ top :: rows, |other.leading| ≤ |pivot.leading| := by
  obtain ⟨row, found, largest⟩ := pivotFrom_largest (top :: rows) rows (0, Scalar.abs top.leading) 1
    rfl ⟨top, rfl, rfl⟩ (by simp)
  rw [exchange]
  split
  · rename_i first
    rw [first] at found
    cases Option.some.inj found
    exact ⟨top, rows, rfl, .refl _, largest⟩
  · rename_i i later
    rw [later, List.getElem?_cons_succ] at found
    obtain ⟨bound, rfl⟩ := List.getElem?_eq_some_iff.1 found
    refine ⟨rows[i], rows.set i top, ?_, ?_, largest⟩
    · simp [bound]
    · have placed := (List.set_perm_cons_eraseIdx bound top).cons rows[i]
      have removed := (List.getElem_cons_eraseIdx_perm bound).cons top
      exact placed.trans ((List.Perm.swap _ _ _).trans removed)

theorem dot_reduced (factor : ℝ) (as ps : List ℝ) (same : as.length = ps.length) (y : List ℝ) :
    dot (List.zipWith (fun a p => a + -p * factor) as ps) y = dot as y - factor * dot ps y := by
  induction as generalizing ps y with
  | nil =>
    rw [List.length_eq_zero_iff.1 same.symm]
    simp
  | cons a as ih =>
    cases ps with
    | nil => simp at same
    | cons p ps =>
      cases y with
      | nil => simp [dot]
      | cons b y =>
        rw [List.zipWith_cons_cons, dot_cons, dot_cons, dot_cons, ih ps (by simpa using same)]
        ring

theorem foldr_solveFirst (right : ℝ) (as xs : List ℝ) :
    (as.zip xs).foldr (fun (a, x) sum => sum + -x * a) right = right - dot as xs := by
  induction as generalizing xs with
  | nil => simp
  | cons a as ih =>
    cases xs with
    | nil => simp [dot]
    | cons x xs =>
      rw [List.zip_cons_cons, List.foldr_cons, ih, dot_cons]
      ring

namespace Row

/-- Whether the row's equation holds of some values of the unknowns. -/
def Holds (row : Row ℝ) (x : List ℝ) : Prop :=
  dot row.coefficients x = row.right

variable {n : Nat} {row pivot : Row ℝ}

theorem dot_eq (width : row.coefficients.length = n + 1) (b : ℝ) (y : List ℝ) :
    dot row.coefficients (b :: y) = row.leading * b + dot row.coefficients.tail y := by
  obtain ⟨a, as, split⟩ := List.exists_cons_of_length_eq_add_one width
  simp [leading, split]

theorem length_reduce (pivotWidth : pivot.coefficients.length = n + 1)
    (width : row.coefficients.length = n + 1) : (reduce pivot row).coefficients.length = n := by
  simp [reduce, pivotWidth, width]

theorem dot_reduce (pivotWidth : pivot.coefficients.length = n + 1)
    (width : row.coefficients.length = n + 1) (y : List ℝ) :
    dot (reduce pivot row).coefficients y = dot row.coefficients.tail y -
      row.leading * (1 / pivot.leading) * dot pivot.coefficients.tail y :=
  dot_reduced _ _ _ (by simp [pivotWidth, width]) y

/-- Values that fit the pivot row fit a row if what comes after the first of them fits the reduced
row. -/
theorem holds_of_reduce (pivotWidth : pivot.coefficients.length = n + 1)
    (width : row.coefficients.length = n + 1) (nonzero : pivot.leading ≠ 0) {b : ℝ} {y : List ℝ}
    (pivotHolds : pivot.Holds (b :: y)) (reduced : (reduce pivot row).Holds y) :
    row.Holds (b :: y) := by
  rw [Holds, dot_eq pivotWidth] at pivotHolds
  rw [Holds, dot_reduce pivotWidth width, reduce] at reduced
  rw [Holds, dot_eq width]
  have balance : dot row.coefficients.tail y = row.right + -pivot.right *
      (row.leading * (1 / pivot.leading)) + row.leading * (1 / pivot.leading) *
        dot pivot.coefficients.tail y := by
    linear_combination reduced
  rw [balance, ← pivotHolds]
  field_simp
  ring

theorem solveFirst_holds (width : row.coefficients.length = n + 1) (nonzero : row.leading ≠ 0)
    (y : List ℝ) : row.Holds (row.solveFirst y :: y) := by
  rw [Holds, dot_eq width, solveFirst, foldr_solveFirst]
  field_simp
  ring

end Row

section Pivot

variable {n : Nat} {rows others : List (Row ℝ)} {pivot : Row ℝ} (count : rows.length = n + 1)
  (width : ∀ row ∈ rows, row.coefficients.length = n + 1)
  (regular : Regular (rows.map (·.coefficients)))
include count width regular

/-- Otherwise the first unknown alone would be taken to zeros. -/
theorem leading_ne_zero_of_regular (largest : ∀ row ∈ rows, |row.leading| ≤ |pivot.leading|) :
    pivot.leading ≠ 0 := by
  intro zero
  have taken : ∀ a ∈ rows.map (·.coefficients), dot a (1 :: List.replicate n 0) = 0 := by
    intro a listed
    obtain ⟨row, inside, rfl⟩ := List.mem_map.1 listed
    have bound := largest row inside
    rw [zero, abs_zero] at bound
    rw [Row.dot_eq (width row inside), abs_nonpos_iff.1 bound, dot_zeros]
    ring
  have absurd := regular (1 :: List.replicate n 0) (by simp [count]) taken 1 List.mem_cons_self
  exact one_ne_zero absurd

theorem regular_reduce (same : (pivot :: others).Perm rows) (nonzero : pivot.leading ≠ 0) :
    Regular ((others.map (Row.reduce pivot)).map (·.coefficients)) := by
  intro y length taken
  have total : others.length + 1 = n + 1 := by rw [← count, ← same.length_eq, List.length_cons]
  let homogeneous (row : Row ℝ) : Row ℝ := ⟨row.coefficients, 0⟩
  have rowWidth : ∀ row ∈ rows, (homogeneous row).coefficients.length = n + 1 := width
  have pivotWidth := rowWidth pivot (same.mem_iff.1 List.mem_cons_self)
  let first := (homogeneous pivot).solveFirst y
  have pivotHolds : (homogeneous pivot).Holds (first :: y) := Row.solveFirst_holds pivotWidth nonzero y
  have all : ∀ a ∈ rows.map (·.coefficients), dot a (first :: y) = 0 := by
    intro a listed
    obtain ⟨row, inside, rfl⟩ := List.mem_map.1 listed
    rcases List.mem_cons.1 (same.mem_iff.2 inside) with rfl | other
    · exact pivotHolds
    · have reduced := taken _ (List.mem_map_of_mem (List.mem_map_of_mem other))
      have reducedHolds : (Row.reduce (homogeneous pivot) (homogeneous row)).Holds y := by
        simpa [Row.Holds, Row.reduce, homogeneous, Row.leading] using reduced
      exact Row.holds_of_reduce pivotWidth (rowWidth row inside) nonzero pivotHolds reducedHolds
  have zeros := regular (first :: y) (by simp at length; simp [length, count, total]) all
  exact fun a inside => zeros a (List.mem_cons_of_mem _ inside)

omit regular in
/-- What the rows take to zeros, the reduced rows take to zeros without its first number. -/
theorem regular_of_reduce (same : (pivot :: others).Perm rows) (nonzero : pivot.leading ≠ 0)
    (reduced : Regular ((others.map (Row.reduce pivot)).map (·.coefficients))) :
    Regular (rows.map (·.coefficients)) := by
  intro y length taken
  have total : others.length + 1 = n + 1 := by rw [← count, ← same.length_eq, List.length_cons]
  have long : y.length = n + 1 := by rw [length, List.length_map, count]
  obtain ⟨b, z, rfl⟩ := List.exists_cons_of_length_eq_add_one long
  have zero : ∀ row ∈ rows, row.leading * b + dot row.coefficients.tail z = 0 := by
    intro row inside
    rw [← Row.dot_eq (width row inside)]
    exact taken _ (List.mem_map_of_mem inside)
  have pivotInside := same.mem_iff.1 List.mem_cons_self
  have pivotZero := zero pivot pivotInside
  have zeros : ∀ a ∈ z, a = 0 := by
    refine reduced z (by simp at long ⊢; omega) fun a listed => ?_
    simp only [List.map_map, List.mem_map, Function.comp_apply] at listed
    obtain ⟨row, other, rfl⟩ := listed
    have inside := same.mem_iff.1 (List.mem_cons_of_mem _ other)
    rw [Row.dot_reduce (width pivot pivotInside) (width row inside), eq_neg_of_add_eq_zero_right (zero row inside),
      eq_neg_of_add_eq_zero_right pivotZero]
    field_simp
    ring
  rw [List.eq_replicate_of_mem zeros, dot_zeros, add_zero] at pivotZero
  exact List.forall_mem_cons.2 ⟨(mul_eq_zero.1 pivotZero).resolve_left nonzero, zeros⟩

end Pivot

theorem eliminate_exact (n : Nat) : ∀ rows : List (Row ℝ), rows.length = n →
    (∀ row ∈ rows, row.coefficients.length = n) → Regular (rows.map (·.coefficients)) →
    ∃ x, eliminate n rows = some x ∧ x.length = n ∧ ∀ row ∈ rows, row.Holds x := by
  induction n with
  | zero =>
    intro rows none width regular
    rw [List.length_eq_zero_iff.1 none]
    exact ⟨[], rfl, rfl, by simp⟩
  | succ n ih =>
    intro rows count width regular
    obtain ⟨top, rest, rfl⟩ := List.exists_cons_of_length_eq_add_one count
    obtain ⟨pivot, others, exchanged, same, largest⟩ := exchange_largest top rest
    have nonzero := leading_ne_zero_of_regular count width regular largest
    have pivotWidth := width pivot (same.mem_iff.1 List.mem_cons_self)
    have otherWidth := fun row inside => width row (same.mem_iff.1 (List.mem_cons_of_mem _ inside))
    have otherCount : others.length = n := by
      have total := same.length_eq
      rw [List.length_cons, count] at total
      exact Nat.succ.inj total
    obtain ⟨y, solved, length, holds⟩ := ih (others.map (Row.reduce pivot)) (by simpa using otherCount)
      (by simpa using fun row inside => Row.length_reduce pivotWidth (otherWidth row inside))
      (regular_reduce count width regular same nonzero)
    have pivotHolds := Row.solveFirst_holds pivotWidth nonzero y
    refine ⟨pivot.solveFirst y :: y, ?_, by simp [length], fun row inside => ?_⟩
    · simp [eliminate, exchanged, nonzero, solved]
    · rcases List.mem_cons.1 (same.mem_iff.2 inside) with rfl | other
      · exact pivotHolds
      · exact Row.holds_of_reduce pivotWidth (width row inside) nonzero pivotHolds
          (holds _ (List.mem_map_of_mem other))

theorem regular_of_eliminate (n : Nat) : ∀ (rows : List (Row ℝ)) (x : List ℝ), rows.length = n →
    (∀ row ∈ rows, row.coefficients.length = n) → eliminate n rows = some x →
    Regular (rows.map (·.coefficients)) := by
  induction n with
  | zero =>
    intro rows x none width solved y length taken a inside
    rw [List.length_eq_zero_iff.1 none] at length
    rw [List.length_eq_zero_iff.1 length] at inside
    exact absurd inside List.not_mem_nil
  | succ n ih =>
    intro rows x count width solved
    obtain ⟨top, rest, rfl⟩ := List.exists_cons_of_length_eq_add_one count
    obtain ⟨pivot, others, exchanged, same, _⟩ := exchange_largest top rest
    have pivotWidth := width pivot (same.mem_iff.1 List.mem_cons_self)
    have otherWidth := fun row inside => width row (same.mem_iff.1 (List.mem_cons_of_mem _ inside))
    have otherCount : others.length = n := by
      have total := same.length_eq
      rw [List.length_cons, count] at total
      exact Nat.succ.inj total
    rw [eliminate, exchanged] at solved
    by_cases zero : pivot.leading = 0
    · simp [zero] at solved
    cases tail : eliminate n (others.map (Row.reduce pivot)) with
    | none => simp [zero, tail] at solved
    | some z =>
      exact regular_of_reduce count width same zero (ih _ z (by simpa using otherCount)
        (by simpa using fun row inside => Row.length_reduce pivotWidth (otherWidth row inside)) tail)

theorem coefficients_zipWith {matrix : List (List ℝ)} {right : List ℝ} (count : right.length = matrix.length) :
    (List.zipWith Row.mk matrix right).map (·.coefficients) = matrix := by
  rw [← List.map_uncurry_zip_eq_zipWith, List.map_map]
  exact List.map_fst_zip count.ge

/-- Elimination with partial pivoting finds the solution of every regular system. -/
theorem solve_exact : Exact solve := by
  intro matrix right count width regular
  have coefficients := coefficients_zipWith count
  have rights : (List.zipWith Row.mk matrix right).map (·.right) = right := by
    rw [← List.map_uncurry_zip_eq_zipWith, List.map_map]
    exact List.map_snd_zip count.le
  have rowWidth : ∀ row ∈ List.zipWith Row.mk matrix right, row.coefficients.length = right.length := by
    intro row inside
    have listed : row.coefficients ∈ matrix := coefficients ▸ List.mem_map_of_mem inside
    rw [width _ listed, count]
  obtain ⟨x, solved, length, holds⟩ := eliminate_exact right.length (List.zipWith Row.mk matrix right)
    (by simp [count]) rowWidth (coefficients.symm ▸ regular)
  refine ⟨x, solved, length.trans count, ?_⟩
  have fits : (List.zipWith Row.mk matrix right).map (fun row => dot row.coefficients x) = right :=
    (List.map_congr_left holds).trans rights
  rwa [← coefficients, List.map_map]

/-- A system that elimination gets through is regular, so that it fails on every other. -/
theorem solve_decisive : Decisive solve := by
  refine ⟨solve_exact, fun matrix right count width singular => ?_⟩
  have coefficients := coefficients_zipWith count
  have rowWidth : ∀ row ∈ List.zipWith Row.mk matrix right, row.coefficients.length = right.length := by
    intro row inside
    have listed : row.coefficients ∈ matrix := coefficients ▸ List.mem_map_of_mem inside
    rw [width _ listed, count]
  cases solved : solve matrix right with
  | none => rfl
  | some x =>
    have regular := regular_of_eliminate right.length _ x (by simp [count]) rowWidth solved
    exact absurd (coefficients ▸ regular) singular

end Distillation.Linear
