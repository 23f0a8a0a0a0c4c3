import Mathlib.Data.List.Basic
import Distillation.Store

namespace Distillation.Store

variable {K : Type}

section Single

variable (s : Store K) (v w : VarId) (x : K)

@[simp] theorem size_fix : (s.fix v).size = s.size :=
  size_modify s v _

@[simp] theorem size_unfix : (s.unfix v).size = s.size :=
  size_modify s v _

@[simp] theorem size_fixAt : (s.fixAt v x).size = s.size := by
  simp [fixAt]

theorem value_modify [Zero K] {change : Variable K → Variable K}
    (keeps : ∀ entry, (change entry).value = entry.value) : (s.modify v change).value w = s.value w := by
  unfold value
  rw [get?_modify]
  by_cases same : v = w
  · cases s.get? w <;> simp [same, keeps]
  · simp [same]

@[simp] theorem value_fix [Zero K] : (s.fix v).value w = s.value w :=
  s.value_modify v w fun _ => rfl

@[simp] theorem value_unfix [Zero K] : (s.unfix v).value w = s.value w :=
  s.value_modify v w fun _ => rfl

theorem isFixed_fix : (s.fix v).isFixed w = (s.isFixed w || decide (v = w ∧ w < s.size)) := by
  unfold isFixed fix
  rw [get?_modify]
  by_cases same : v = w
  · by_cases known : w < s.size
    · have present : s.get? w = some s.entries[w] := Array.getElem?_eq_getElem known
      simp [same, known, present]
    · have absent : s.get? w = none := Array.getElem?_eq_none (Nat.le_of_not_lt known)
      simp [same, known, absent]
  · simp [same]

theorem isFixed_unfix : (s.unfix v).isFixed w = (s.isFixed w && decide (v ≠ w)) := by
  unfold isFixed unfix
  rw [get?_modify]
  by_cases same : v = w
  · cases s.get? w <;> simp [same]
  · simp [same]

theorem isFixed_fixAt :
    (s.fixAt v x).isFixed w = (s.isFixed w || decide (v = w ∧ w < s.size)) := by
  rw [fixAt, isFixed_fix, isFixed_set, size_set]

theorem value_fixAt [Zero K] :
    (s.fixAt v x).value w = if v = w ∧ w < s.size then x else s.value w := by
  rw [fixAt, value_fix, value_set]

end Single

section Undone

variable {s : Store K} {v : VarId}

/-- A change of a variable that is undone leaves the store as it was. -/
theorem modify_modify {change back : Variable K → Variable K}
    (undone : ∀ entry ∈ s.get? v, back (change entry) = entry) : (s.modify v change).modify v back = s := by
  refine ext_get? fun w => ?_
  rw [get?_modify, get?_modify]
  by_cases same : v = w
  · subst same
    cases found : s.get? v with
    | none => simp
    | some entry => simpa using undone entry found
  · simp [same]

theorem unfix_fix (free : s.isFixed v = false) : (s.fix v).unfix v = s :=
  modify_modify fun entry known => by
    have own : entry.fixed = false := by simpa [isFixed, Option.mem_def.1 known] using free
    rw [← own]

theorem fix_unfix (fixed : s.isFixed v = true) : (s.unfix v).fix v = s :=
  modify_modify fun entry known => by
    have own : entry.fixed = true := by simpa [isFixed, Option.mem_def.1 known] using fixed
    rw [← own]

end Undone

section Lists

variable {α : Type} (f : α → VarId)

theorem isFixed_foldl_unfix (l : List α) (s : Store K) (w : VarId) :
    (l.foldl (fun s a => s.unfix (f a)) s).isFixed w = (s.isFixed w && decide (w ∉ l.map f)) := by
  induction l generalizing s with
  | nil => simp
  | cons a rest ih => rw [List.foldl_cons, ih, isFixed_unfix]; grind

theorem size_foldl_unfix (l : List α) (s : Store K) :
    (l.foldl (fun s a => s.unfix (f a)) s).size = s.size := by
  induction l generalizing s with
  | nil => rfl
  | cons a rest ih => rw [List.foldl_cons, ih, size_unfix]

theorem value_foldl_unfix [Zero K] (l : List α) (s : Store K) (w : VarId) :
    (l.foldl (fun s a => s.unfix (f a)) s).value w = s.value w := by
  induction l generalizing s with
  | nil => rfl
  | cons a rest ih => rw [List.foldl_cons, ih, value_unfix]

end Lists

/-- Fixes variables at values, one after another. -/
def fixAll (s : Store K) (specs : List (VarId × K)) : Store K :=
  specs.foldl (fun s spec => s.fixAt spec.1 spec.2) s

section FixAll

@[simp] theorem size_fixAll (specs : List (VarId × K)) (s : Store K) : (s.fixAll specs).size = s.size := by
  induction specs generalizing s with
  | nil => rfl
  | cons spec rest ih => exact (ih _).trans (s.size_fixAt spec.1 spec.2)

theorem isFixed_fixAll (specs : List (VarId × K)) (s : Store K) (w : VarId) :
    (s.fixAll specs).isFixed w = (s.isFixed w || decide (w ∈ specs.map (·.1) ∧ w < s.size)) := by
  induction specs generalizing s with
  | nil => simp [fixAll]
  | cons spec rest ih =>
    change ((s.fixAt spec.1 spec.2).fixAll rest).isFixed w = _
    rw [ih, isFixed_fixAt, size_fixAt]
    grind

theorem value_fixAll_of_not_mem [Zero K] {specs : List (VarId × K)} {w : VarId}
    (absent : w ∉ specs.map (·.1)) (s : Store K) : (s.fixAll specs).value w = s.value w := by
  induction specs generalizing s with
  | nil => rfl
  | cons spec rest ih =>
    obtain ⟨other, later⟩ := List.ne_and_not_mem_of_not_mem_cons absent
    change ((s.fixAt spec.1 spec.2).fixAll rest).value w = _
    rw [ih later, value_fixAt, if_neg fun hit => other hit.1.symm]

/-- Where all that is said of a variable agrees, that is its value. -/
theorem value_fixAll_of_mem [Zero K] {specs : List (VarId × K)} {w : VarId} {x : K}
    (agree : ∀ spec ∈ specs, spec.1 = w → spec.2 = x) (listed : w ∈ specs.map (·.1)) (s : Store K)
    (known : w < s.size) : (s.fixAll specs).value w = x := by
  induction specs generalizing s with
  | nil => simp at listed
  | cons spec rest ih =>
    obtain ⟨first, others⟩ := List.forall_mem_cons.1 agree
    change ((s.fixAt spec.1 spec.2).fixAll rest).value w = x
    by_cases later : w ∈ rest.map (·.1)
    · exact ih others later _ (by rwa [size_fixAt])
    · have here : spec.1 = w := by
        rcases List.mem_cons.1 listed with same | inside
        · exact same.symm
        · exact absurd inside later
      rw [value_fixAll_of_not_mem later, value_fixAt, if_pos ⟨here, known⟩, first here]

end FixAll

end Distillation.Store
