import Distillation.Expr.Basic

namespace Distillation

/-- Puts an id at its place in an increasing list that may already hold it. -/
def placeId (v : VarId) : List VarId → List VarId
  | [] => [v]
  | w :: rest => if v < w then v :: w :: rest else if v = w then w :: rest else w :: placeId v rest

theorem mem_placeId {v w : VarId} {ids : List VarId} :
    w ∈ placeId v ids ↔ w = v ∨ w ∈ ids := by
  induction ids with
  | nil => simp [placeId]
  | cons u rest ih => simp only [placeId]; grind

theorem placeId_increasing {ids : List VarId} (increasing : ids.Pairwise (· < ·)) (v : VarId) :
    (placeId v ids).Pairwise (· < ·) := by
  induction ids with
  | nil => simp [placeId]
  | cons u rest ih =>
    have ⟨above, tail⟩ := List.pairwise_cons.1 increasing
    rw [placeId]
    split
    · rename_i below
      refine List.pairwise_cons.2 ⟨fun w inside => ?_, increasing⟩
      rcases List.mem_cons.1 inside with rfl | later
      · exact below
      · exact Nat.lt_trans below (above w later)
    · rename_i notBelow
      split
      · exact increasing
      · rename_i distinct
        refine List.pairwise_cons.2 ⟨fun w inside => ?_, ih tail⟩
        rcases mem_placeId.1 inside with rfl | later
        · exact Nat.lt_of_le_of_ne (Nat.le_of_not_lt notBelow) (Ne.symm distinct)
        · exact above w later

namespace Expr

variable {K : Type}

mutual

/-- Adds the variables of an expression to an increasing list of ids. -/
def collect (ids : List VarId) : Expr K → List VarId
  | const _ => ids
  | var v => placeId v ids
  | sum terms => collectTerms ids terms
  | product a b => collect (collect ids a) b
  | quotient a b => collect (collect ids a) b
  | neg a => collect ids a

def collectTerms (ids : List VarId) : List (Expr K) → List VarId
  | [] => ids
  | term :: rest => collectTerms (collect ids term) rest

end

/-- The variables that an expression refers to, in increasing order. -/
def vars (e : Expr K) : List VarId :=
  e.collect []

/-- Whether a store knows every variable of an expression. -/
def inScope (e : Expr K) (s : Store K) : Bool :=
  e.vars.all (· < s.size)

mutual

theorem collect_increasing (ids : List VarId) (increasing : ids.Pairwise (· < ·)) :
    ∀ e : Expr K, (collect ids e).Pairwise (· < ·)
  | const _ => by rwa [collect]
  | var v => by rw [collect]; exact placeId_increasing increasing v
  | sum terms => by rw [collect]; exact collectTerms_increasing ids increasing terms
  | product a b => by
    rw [collect]
    exact collect_increasing _ (collect_increasing ids increasing a) b
  | quotient a b => by
    rw [collect]
    exact collect_increasing _ (collect_increasing ids increasing a) b
  | neg a => by rw [collect]; exact collect_increasing ids increasing a

theorem collectTerms_increasing (ids : List VarId) (increasing : ids.Pairwise (· < ·)) :
    ∀ terms : List (Expr K), (collectTerms ids terms).Pairwise (· < ·)
  | [] => by rwa [collectTerms]
  | term :: rest => by
    rw [collectTerms]
    exact collectTerms_increasing _ (collect_increasing ids increasing term) rest

end

theorem vars_increasing (e : Expr K) : e.vars.Pairwise (· < ·) :=
  collect_increasing [] .nil e

end Expr

end Distillation
