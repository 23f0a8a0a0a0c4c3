import Mathlib.Data.List.Forall2
import Distillation.Proofs.Action
import Distillation.Proofs.Store.Flags

namespace Distillation

namespace Store

variable {K : Type}

/-- The variables `ids` were declared, in this order, and nothing else was done. -/
structure Grows (s : Store K) (ids : List VarId) (t : Store K) : Prop where
  fresh : ids = List.range' s.size ids.length
  size : t.size = s.size + ids.length
  kept : ∀ v, v < s.size → t.get? v = s.get? v
  free : ∀ v ∈ ids, t.isFixed v = false

namespace Grows

variable {s t u : Store K} {ids others : List VarId}

theorem refl (s : Store K) : s.Grows [] s :=
  ⟨rfl, rfl, fun _ _ => rfl, by simp⟩

theorem mem_iff (grown : s.Grows ids t) {v : VarId} : v ∈ ids ↔ s.size ≤ v ∧ v < t.size := by
  rw [grown.fresh, List.mem_range'_1, ← grown.size]

theorem nodup (grown : s.Grows ids t) : ids.Nodup := by
  rw [grown.fresh]
  exact List.nodup_range'

theorem isFixed_kept (grown : s.Grows ids t) {v : VarId} (old : v < s.size) :
    t.isFixed v = s.isFixed v := by
  rw [isFixed, grown.kept v old, isFixed]

theorem trans (first : s.Grows ids t) (second : t.Grows others u) : s.Grows (ids ++ others) u := by
  refine ⟨?_, ?_, fun v old => ?_, fun v listed => ?_⟩
  · rw [List.length_append, ← List.range'_append_1, ← first.size, ← first.fresh, ← second.fresh]
  · rw [second.size, first.size, List.length_append, Nat.add_assoc]
  · have stillOld : v < t.size := by have grown := first.size; omega
    rw [second.kept v stillOld, first.kept v old]
  · rcases List.mem_append.1 listed with earlier | later
    · rw [second.isFixed_kept (first.mem_iff.1 earlier).2, first.free v earlier]
    · exact second.free v later

theorem create (s : Store K) (name : String) (value : K) :
    s.Grows [s.size] (s.create name value).2 := by
  refine ⟨rfl, s.size_create value name, fun v old => ?_, fun v listed => ?_⟩
  · rw [s.get?_create, if_neg (Nat.ne_of_lt old)]
  · rw [List.mem_singleton.1 listed, isFixed, s.get?_create, if_pos rfl]
    rfl

end Grows

/-- The variables of a store live on in a later one, with any values and flags. -/
def Continues (s t : Store K) : Prop :=
  ∀ v, v < s.size → (t.get? v).map (·.name) = (s.get? v).map (·.name)

theorem Continues.refl (s : Store K) : s.Continues s :=
  fun _ _ => rfl

theorem Continues.trans {s t u : Store K} (first : s.Continues t) (second : t.Continues u) : s.Continues u := by
  intro v old
  have kept := first v old
  have present : v < t.size := by
    by_contra lost
    have absent : t.get? v = none := Array.getElem?_eq_none (Nat.le_of_not_lt lost)
    have known : s.get? v = some s.entries[v] := Array.getElem?_eq_getElem old
    simp [absent, known] at kept
  rw [second v present, kept]

theorem Continues.modify (s : Store K) (v : VarId) {change : Variable K → Variable K}
    (keeps : ∀ entry, (change entry).name = entry.name) : s.Continues (s.modify v change) := by
  intro w _
  rw [get?_modify]
  split
  · cases s.get? w <;> simp [keeps]
  · rfl

theorem Continues.fixAt (s : Store K) (v : VarId) (x : K) : s.Continues (s.fixAt v x) := by
  have set : s.Continues (s.set v x) := .modify s v fun _ => rfl
  exact set.trans (.modify _ v fun _ => rfl)

theorem Continues.unfix (s : Store K) (v : VarId) : s.Continues (s.unfix v) :=
  .modify s v fun _ => rfl

theorem Continues.foldl {α : Type} {change : Store K → α → Store K}
    (step : ∀ (s : Store K) a, s.Continues (change s a)) (l : List α) (s : Store K) : s.Continues (l.foldl change s) := by
  induction l generalizing s with
  | nil => exact .refl s
  | cons a rest ih => exact (step s a).trans (ih _)

theorem Continues.fixAll (specs : List (VarId × K)) (s : Store K) : s.Continues (s.fixAll specs) := by
  unfold Store.fixAll
  refine foldl ?_ specs s
  exact fun s spec => fixAt s spec.1 spec.2

theorem Continues.size_le {s t : Store K} (later : s.Continues t) : s.size ≤ t.size := by
  by_contra shorter
  have beyond : t.size < s.size := Nat.lt_of_not_le shorter
  have lost := later t.size beyond
  have absent : t.get? t.size = none := Array.getElem?_eq_none (Nat.le_refl _)
  have present : s.get? t.size = some s.entries[t.size] := Array.getElem?_eq_getElem beyond
  simp [absent, present] at lost

end Store

namespace Action

variable {K E α β : Type}

theorem create_grows {name : String} {value : K} {s t : Store K} {v : VarId}
    (run : (create name value : Action K E VarId).on s = (.ok v, t)) : s.Grows [v] t := by
  cases run
  exact .create s name value

/-- A run over a list declares what its steps declare, one after another. -/
theorem on_mapM_grows {f : α → Action K E β} (ids : β → List VarId) (P : α → β → Prop)
    (each : ∀ a s b t, (f a).on s = (.ok b, t) → s.Grows (ids b) t ∧ P a b) (l : List α) :
    ∀ {s t : Store K} {bs : List β}, (l.mapM f).on s = (.ok bs, t) →
      s.Grows (bs.flatMap ids) t ∧ List.Forall₂ P l bs := by
  induction l with
  | nil =>
    intro s t bs run
    cases run
    exact ⟨.refl s, .nil⟩
  | cons a rest ih =>
    intro s t bs run
    rw [List.mapM_cons] at run
    obtain ⟨b, u, first, later⟩ := on_bind_eq_ok.1 run
    obtain ⟨cs, w, others, last⟩ := on_bind_eq_ok.1 later
    cases last
    obtain ⟨grown, holds⟩ := each a s b u first
    obtain ⟨grownLater, holdsLater⟩ := ih others
    exact ⟨grown.trans grownLater, .cons holds holdsLater⟩

end Action

end Distillation
