import Distillation.Proofs.Linear.Regular

namespace Distillation.Linear

section Definite

variable {K : Type} [Scalar K]

/-- The values of the unknowns fit every row of a square system. -/
def Solves (matrix : List (List K)) (right : List K) (x : List K) : Prop :=
  x.length = matrix.length ∧ ∀ row ∈ matrix.zip right, Scalar.sum (List.zipWith (· * ·) row.1 x) = row.2

/-- A linear solver that finds the solution of every square system with exactly one, and fails on all others. -/
def Definite (linear : Newton.LinearSolver K) : Prop :=
  ∀ (matrix : List (List K)) (right : List K), right.length = matrix.length →
    (∀ row ∈ matrix, row.length = matrix.length) → ∀ x, linear matrix right = some x ↔
      Solves matrix right x ∧ ∀ y, Solves matrix right y → y = x

theorem solves_perm {rows rows' : List (List K × K)} (perm : rows.Perm rows') (x : List K) :
    Solves (rows.map (·.1)) (rows.map (·.2)) x ↔ Solves (rows'.map (·.1)) (rows'.map (·.2)) x := by
  have zipped : ∀ l : List (List K × K), (l.map (·.1)).zip (l.map (·.2)) = l := fun l => by
    rw [List.zip_map', List.map_id']
  rw [Solves, Solves, zipped, zipped, List.length_map, List.length_map, perm.length_eq]
  exact and_congr_right fun _ => forall_congr' fun row => imp_congr_left perm.mem_iff

/-- The order of the equations makes no difference. -/
theorem Definite.reorder {linear : Newton.LinearSolver K} (definite : Definite linear)
    {rows rows' : List (List K × K)} (perm : rows.Perm rows') (width : ∀ row ∈ rows, row.1.length = rows.length) :
    linear (rows'.map (·.1)) (rows'.map (·.2)) = linear (rows.map (·.1)) (rows.map (·.2)) := by
  have answers : ∀ l : List (List K × K), (∀ row ∈ l, row.1.length = l.length) → ∀ x,
      linear (l.map (·.1)) (l.map (·.2)) = some x ↔ Solves (l.map (·.1)) (l.map (·.2)) x ∧
        ∀ y, Solves (l.map (·.1)) (l.map (·.2)) y → y = x := fun l width x =>
    definite _ _ (by rw [List.length_map, List.length_map]) (by simpa using width) x
  have width' : ∀ row ∈ rows', row.1.length = rows'.length := by
    intro row inside
    rw [width row (perm.mem_iff.2 inside), perm.length_eq]
  refine Option.ext fun x => ?_
  rw [answers rows' width', answers rows width]
  simp only [solves_perm perm]

open Classical in
/-- The linear solver that answers with the only solution there is. -/
noncomputable def byUniqueness (matrix : List (List K)) (right : List K) : Option (List K) :=
  if unique : ∃! x, Solves matrix right x then some unique.choose else none

theorem byUniqueness_definite : Definite (byUniqueness : Newton.LinearSolver K) := by
  intro matrix right _ _ x
  rw [byUniqueness]
  split
  · rename_i unique
    obtain ⟨solves, only⟩ := unique.choose_spec
    rw [Option.some.injEq]
    constructor
    · rintro rfl
      exact ⟨solves, only⟩
    · exact fun ⟨_, only'⟩ => only' _ solves
  · rename_i none
    exact iff_of_false nofun fun ⟨solves, only⟩ => none ⟨x, solves, only⟩

end Definite

theorem solves_iff {matrix : List (List ℝ)} {right x : List ℝ} (count : right.length = matrix.length) :
    Solves matrix right x ↔ x.length = matrix.length ∧ matrix.map (dot · x) = right := by
  have rows : matrix.map (dot · x) = right ↔ ∀ row ∈ matrix.zip right, dot row.1 x = row.2 := by
    rw [← List.forall₂_eq_eq_eq, List.forall₂_map_left_iff, List.forall₂_iff_zip, Prod.forall]
    exact and_iff_right count.symm
  rw [rows, Solves]
  simp only [Scalar.real_sum, dot]

theorem dot_sub (a : List ℝ) : ∀ x y : List ℝ, x.length = y.length →
    dot a (List.zipWith (· - ·) x y) = dot a x - dot a y := by
  induction a with
  | nil => simp
  | cons b a ih =>
    intro x y same
    cases x with
    | nil =>
      rw [List.length_eq_zero_iff.1 same.symm]
      simp [dot]
    | cons p x =>
      obtain ⟨q, y, rfl⟩ := List.exists_cons_of_length_eq_add_one same.symm
      rw [List.zipWith_cons_cons, dot_cons, dot_cons, dot_cons, ih x y (Nat.succ.inj same)]
      ring

/-- A system with a unique solution is regular, so that a solver which fails on the singular ones answers. -/
theorem Decisive.definite {linear : Newton.LinearSolver ℝ} (decisive : Decisive linear) : Definite linear := by
  intro matrix right count width x
  simp only [solves_iff count]
  constructor
  · intro answered
    have regular : Regular matrix := by
      by_contra singular
      rw [decisive.singular matrix right count width singular] at answered
      cases answered
    obtain ⟨_, found, length, fits⟩ := decisive.exact matrix right count width regular
    cases answered.symm.trans found
    refine ⟨⟨length, fits⟩, fun y ⟨length', fits'⟩ => ?_⟩
    have same : y.length = x.length := length'.trans length.symm
    have still : ∀ a ∈ List.zipWith (· - ·) y x, a = 0 := by
      refine regular _ (by rw [List.length_zipWith, same, Nat.min_self, length]) fun row inside => ?_
      rw [dot_sub row y x same, List.map_inj_left.1 (fits'.trans fits.symm) row inside, sub_self]
    refine List.ext_getElem same fun i here there => sub_eq_zero.1 (still _ ?_)
    have within : i < (List.zipWith (· - ·) y x).length := by rw [List.length_zipWith]; exact lt_min here there
    exact List.mem_of_getElem (List.getElem_zipWith (h := within))
  · rintro ⟨⟨length, fits⟩, only⟩
    have regular : Regular matrix := by
      intro y length' taken
      have same : x.length = y.length := length.trans length'.symm
      have fits' : matrix.map (dot · (List.zipWith (· - ·) x y)) = right := by
        rw [← fits]
        refine List.map_congr_left fun row inside => ?_
        rw [dot_sub row x y same, taken row inside, sub_zero]
      have unmoved := only (List.zipWith (· - ·) x y) ⟨by rw [List.length_zipWith, same, Nat.min_self, length'], fits'⟩
      intro a inside
      obtain ⟨i, there, rfl⟩ := List.getElem_of_mem inside
      have here : i < x.length := same ▸ there
      have within : i < (List.zipWith (· - ·) x y).length := by rwa [unmoved]
      have entry : x[i] - y[i] = x[i] := List.getElem_zipWith.symm.trans (List.getElem_of_eq unmoved within)
      exact sub_eq_self.1 entry
    obtain ⟨y, found, length', fits'⟩ := decisive.exact matrix right count width regular
    rw [found, only y ⟨length', fits'⟩]

end Distillation.Linear
