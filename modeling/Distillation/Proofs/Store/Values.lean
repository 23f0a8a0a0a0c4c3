import Mathlib.Logic.Function.Basic
import Distillation.Store

namespace Distillation.Store

variable {K : Type}

/-- The store with the values of an assignment under the same names and flags. -/
def withValues (s : Store K) (x : VarId → K) : Store K :=
  ⟨s.entries.mapIdx fun v entry => { entry with value := x v }⟩

section Laws

variable (s : Store K) (x : VarId → K) (v : VarId)

theorem get?_withValues : (s.withValues x).get? v = (s.get? v).map fun entry => { entry with value := x v } :=
  Array.getElem?_mapIdx

@[simp] theorem size_withValues : (s.withValues x).size = s.size :=
  Array.size_mapIdx

@[simp] theorem isFixed_withValues : (s.withValues x).isFixed v = s.isFixed v := by
  rw [isFixed, get?_withValues, Option.any_map]
  rfl

theorem value_withValues [Zero K] {v : VarId} (known : v < s.size) : (s.withValues x).value v = x v := by
  have present : s.get? v = some s.entries[v] := Array.getElem?_eq_getElem known
  rw [value, get?_withValues, present]
  rfl

/-- Where an assignment agrees with the store, nothing is written. -/
theorem get?_withValues_of_eq [Zero K] {x : VarId → K} {v : VarId} (same : x v = s.value v) :
    (s.withValues x).get? v = s.get? v := by
  rw [get?_withValues, same]
  cases found : s.get? v with
  | none => rfl
  | some entry =>
    rw [value, found]
    rfl

@[simp] theorem withValues_value [Zero K] : s.withValues s.value = s :=
  ext_get? fun _ => s.get?_withValues_of_eq rfl

theorem set_withValues (a : K) : (s.withValues x).set v a = s.withValues (Function.update x v a) := by
  refine ext_get? fun w => ?_
  rw [set, get?_modify, get?_withValues, get?_withValues]
  by_cases same : v = w
  · subst same
    rw [if_pos rfl, Function.update_self, Option.map_map]
    rfl
  · rw [if_neg same, Function.update_of_ne (Ne.symm same)]

theorem value_set_known [Zero K] {v : VarId} (known : v < s.size) (a : K) :
    (s.set v a).value = Function.update s.value v a := by
  funext w
  rw [value_set]
  by_cases same : w = v
  · subst same
    rw [if_pos ⟨rfl, known⟩, Function.update_self]
  · rw [if_neg fun hit => same hit.1.symm, Function.update_of_ne same]

/-- Whatever values a store has taken, its old ones bring it back. -/
theorem setValues_withValues : (s.withValues x).setValues s.values = s := by
  refine ext_get? fun v => ?_
  rw [setValues, get?, Array.getElem?_mapIdx]
  change ((s.withValues x).get? v).map _ = _
  rw [get?_withValues, Option.map_map]
  by_cases known : v < s.size
  · have present : s.get? v = some s.entries[v] := Array.getElem?_eq_getElem known
    have old : s.values.getD v (x v) = s.entries[v].value := by
      rw [values, Array.getD_eq_getD_getElem?, Array.getElem?_map, Array.getElem?_eq_getElem known]
      rfl
    rw [present, Option.map_some, Function.comp_apply]
    exact congrArg (fun value => some { s.entries[v] with value }) old
  · have absent : s.get? v = none := Array.getElem?_eq_none (Nat.le_of_not_lt known)
    rw [absent, Option.map_none]

end Laws

end Distillation.Store
